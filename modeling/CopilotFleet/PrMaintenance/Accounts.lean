import CopilotFleet.Lib.Tally
import CopilotFleet.PrMaintenance.Laws
import Mathlib.Algebra.Group.Prod

/-!
# One Outstanding Batch, and What Was Spent

Batches end in six ways, and each gives back what was reserved and not used.
What the counters should say is a sum over the batches and the lead's actions:
a batch costs what it reserved until it says what it used, and one of the
repair or answer batches. Every act that changes a batch moves the counters by
what that changes of its cost, and no act touches a batch that has ended.

An act is therefore seen as what it does to the ledger: the batches, the
actions and the counters. Batches are rewritten entry by entry (`Moves`), and
a rewriting keeps the ledger sound where the counters move with it
(`Sound.rewrite`).

## Main definitions

* `Batch.cost`, `Effect.cost`: What they count for, in the three counters.
* `Sound`: At most one batch is outstanding, and the counters are the sums.
* `Batch.Follows`: What a batch may become.
* `Fair`: An act that keeps a ledger sound, and whose batches follow.

## Theorems

* `Sound.rewrite`: Batches rewritten, with the counters.
* `recordSettlement_fair`, `cancelUndispatched_fair`: A report that is written down is fair,
  and so is what a hold cancels.
* `Act.fair`: Every act is.
* `batches_kept`: Every registration in every run is sound, and its batches follow.
-/

namespace CopilotFleet

open Utf16 Refusal Tally Timestamps

namespace PrMaintenance

/-! ### What is counted -/

/-- Repair batches, answer batches and mutations. -/
def Counters.spent (counters : Counters) : Int × Int × Int :=
  (counters.repairBatches, counters.answerBatches, counters.mutationAttempts)

/-- The batch counts as a repair: it is outstanding, or it was published. -/
def Batch.repairing (batch : Batch) : Bool :=
  batch.kind = .repair && (batch.outstanding || batch.published)

/-- The batch counts as an answer: it is outstanding, or it was accepted. -/
def Batch.answering (batch : Batch) : Bool :=
  batch.kind = .answer && (batch.outstanding || batch.stepId.isSome)

/-- The mutations a batch counts for. -/
def Batch.mutations (batch : Batch) : Nat := batch.usedMutations.getD batch.reservedMutations

/-- The mutations an effect counts for. -/
def Effect.mutations (effect : Effect) : Nat :=
  if unsettledEffect effect then effect.attempts else effect.used

def Batch.cost (batch : Batch) : Int × Int × Int :=
  (if batch.repairing then 1 else 0, if batch.answering then 1 else 0, batch.mutations)

def Effect.cost (effect : Effect) : Int × Int × Int := (0, 0, effect.mutations)

/-! ### Sound registrations -/

/-- What a batch must be, under the authorization it was prepared for. -/
structure Batch.Good (authorizationId : Text) (batch : Batch) : Prop where
  authorized : batch.authorizationId = authorizationId
  /-- A batch says what it used when it ends, and not before. -/
  used : batch.outstanding = batch.usedMutations.isNone
  prepared : batch.state = .prepared → batch.stepId = none ∧ batch.published = false
  accepted : batch.state = .accepted →
    batch.stepId.isSome = true ∧ batch.attempt.isSome = true ∧ batch.published = false

theorem Batch.outstanding_of {batch : Batch} {state : BatchState} (h : batch.state = state) :
    batch.outstanding = state.outstanding := congrArg BatchState.outstanding h

theorem Batch.Good.unused {authorizationId : Text} {batch : Batch}
    (h : batch.Good authorizationId) (hout : batch.outstanding = true) :
    batch.usedMutations = none := by
  have hused := h.used
  rw [hout] at hused
  simpa using hused.symm

structure Sound (record : Registration) : Prop where
  authorized : record.authorization.scope.publicationAuthorized = true
  nodup : (record.batches.map (·.id)).Nodup
  single : record.batches.countP Batch.outstanding ≤ 1
  good : ∀ batch ∈ record.batches, batch.Good record.authorization.id
  /-- An effect whose outcome is open has used what was reserved for it. -/
  reserved : ∀ effect ∈ record.actions, unsettledEffect effect = true →
    effect.used = effect.attempts
  spent : record.counters.spent = tally Batch.cost record.batches + tally Effect.cost record.actions

/-- What a batch may become: itself, once it has ended, and never another step's. -/
structure Batch.Follows (batch next : Batch) : Prop where
  ended : batch.outstanding = false → next = batch
  bound : batch.stepId.isSome = true → next.stepId = batch.stepId ∧ next.attempt = batch.attempt

theorem Batch.Follows.refl (batch : Batch) : batch.Follows batch where
  ended _ := rfl
  bound _ := ⟨rfl, rfl⟩

theorem Batch.Follows.trans {a b c : Batch} (hab : a.Follows b) (hbc : b.Follows c) :
    a.Follows c where
  ended h := by
    have hb := hab.ended h
    rw [← hb]
    exact hbc.ended (hb ▸ h)
  bound h := by
    rcases hab.bound h with ⟨hstep, hattempt⟩
    rcases hbc.bound (hstep.symm ▸ h) with ⟨hstep', hattempt'⟩
    exact ⟨hstep'.trans hstep, hattempt'.trans hattempt⟩

/-- The batches of a registration, and what became of each. -/
def Follows (record next : Registration) : Prop :=
  ∀ batchId batch, record.batch batchId = some batch →
    ∃ later, next.batch batchId = some later ∧ batch.Follows later

theorem Follows.refl (record : Registration) : Follows record record :=
  fun _ batch h => ⟨batch, h, .refl batch⟩

theorem Follows.trans {a b c : Registration} (hab : Follows a b) (hbc : Follows b c) :
    Follows a c := by
  intro batchId batch hbatch
  rcases hab batchId batch hbatch with ⟨later, hlater, hfollows⟩
  rcases hbc batchId later hlater with ⟨last, hlast, hfollows'⟩
  exact ⟨last, hlast, hfollows.trans hfollows'⟩

/-- From a sound registration to a sound one, whose batches follow. -/
def Fair (record next : Registration) : Prop :=
  Sound record → Sound next ∧ Follows record next

variable {w : World} {cause : Cause} {record next changed : Registration}

theorem Fair.refl (record : Registration) : Fair record record :=
  fun h => ⟨h, .refl record⟩

theorem Fair.trans {a b c : Registration} (hab : Fair a b) (hbc : Fair b c) : Fair a c := by
  intro ha
  rcases hab ha with ⟨hb, hfollows⟩
  rcases hbc hb with ⟨hc, hfollows'⟩
  exact ⟨hc, hfollows.trans hfollows'⟩

theorem Quiet.fair (h : Quiet record next) : Fair record next := by
  intro hsound
  constructor
  · constructor
    · rw [h.authorization]
      exact hsound.authorized
    · rw [h.batches]
      exact hsound.nodup
    · rw [h.batches]
      exact hsound.single
    · rw [h.batches, h.authorization]
      exact hsound.good
    · rw [h.actions]
      exact hsound.reserved
    · unfold Counters.spent
      rw [h.repairs, h.answers, h.mutations, h.batches, h.actions]
      exact hsound.spent
  · intro batchId batch hbatch
    refine ⟨batch, ?_, .refl batch⟩
    unfold Registration.batch
    rw [h.batches]
    exact hbatch

/-! ### Batches rewritten -/

/-- One step of a batch, which keeps it good. -/
structure Batch.Moves (authorizationId : Text) (batch next : Batch) : Prop where
  id : next.id = batch.id
  outstanding : next.outstanding = true → batch.outstanding = true
  good : batch.Good authorizationId → next.Good authorizationId
  follows : batch.Follows next

theorem Batch.Moves.refl (authorizationId : Text) (batch : Batch) :
    batch.Moves authorizationId batch where
  id := rfl
  outstanding h := h
  good h := h
  follows := .refl batch

variable {authorizationId : Text} {xs ys : List Batch}

theorem ids_of_moves (h : List.Forall₂ (Batch.Moves authorizationId) xs ys) :
    ys.map (·.id) = xs.map (·.id) := by
  induction h with
  | nil => rfl
  | cons hmove _ ih => rw [List.map_cons, List.map_cons, hmove.id, ih]

theorem countP_of_moves (h : List.Forall₂ (Batch.Moves authorizationId) xs ys) :
    ys.countP Batch.outstanding ≤ xs.countP Batch.outstanding := by
  induction h with
  | nil => exact le_rfl
  | cons hmove _ ih =>
      rw [List.countP_cons, List.countP_cons]
      split
      · rename_i hout
        rw [if_pos (hmove.outstanding hout)]
        omega
      · omega

theorem good_of_moves (h : List.Forall₂ (Batch.Moves authorizationId) xs ys)
    (hxs : ∀ batch ∈ xs, batch.Good authorizationId) :
    ∀ batch ∈ ys, batch.Good authorizationId := by
  induction h with
  | nil => exact fun _ hmem => (nomatch hmem)
  | cons hmove _ ih =>
      intro batch hmem
      rcases List.mem_cons.mp hmem with rfl | hmem
      · exact hmove.good (hxs _ List.mem_cons_self)
      · exact ih (fun other hother => hxs other (List.mem_cons_of_mem _ hother)) batch hmem

theorem find_of_moves (h : List.Forall₂ (Batch.Moves authorizationId) xs ys) {batchId : Text}
    {batch : Batch} (hbatch : xs.find? (fun batch => batch.id = batchId) = some batch) :
    ∃ later, ys.find? (fun batch => batch.id = batchId) = some later ∧ batch.Follows later := by
  induction h with
  | nil => cases hbatch
  | @cons x y _ _ hmove _ ih =>
      by_cases hid : x.id = batchId
      · rw [List.find?_cons, decide_eq_true hid] at hbatch
        cases hbatch
        refine ⟨y, ?_, hmove.follows⟩
        rw [List.find?_cons, decide_eq_true (hmove.id.trans hid)]
      · rw [List.find?_cons, decide_eq_false hid] at hbatch
        rcases ih hbatch with ⟨later, hlater, hfollows⟩
        refine ⟨later, ?_, hfollows⟩
        rw [List.find?_cons, decide_eq_false (hmove.id ▸ hid)]
        exact hlater

/-- Batches are rewritten, and the counters move by what that changes. -/
theorem Sound.rewrite (h : Sound record) (hauthorization : next.authorization = record.authorization)
    (hactions : next.actions = record.actions)
    (hmoves : List.Forall₂ (Batch.Moves record.authorization.id) record.batches next.batches)
    (hspent : next.counters.spent = record.counters.spent +
      (tally Batch.cost next.batches - tally Batch.cost record.batches)) :
    Sound next ∧ Follows record next := by
  constructor
  · constructor
    · rw [hauthorization]
      exact h.authorized
    · rw [ids_of_moves hmoves]
      exact h.nodup
    · exact (countP_of_moves hmoves).trans h.single
    · rw [hauthorization]
      exact good_of_moves hmoves h.good
    · rw [hactions]
      exact h.reserved
    · rw [hspent, h.spent, hactions]
      abel
  · exact fun batchId batch hbatch => find_of_moves hmoves hbatch

/-- What is given back for a batch is what its end changes of its cost. -/
theorem refund_spent {batch ended : Batch} {used : Nat} {published : Bool}
    (hgood : batch.Good authorizationId) (hout : batch.outstanding = true)
    (hkind : ended.kind = batch.kind) (hended : ended.outstanding = false)
    (hstep : ended.stepId = batch.stepId) (hpublished : ended.published = published)
    (hused : ended.usedMutations = some used) (counters : Counters) :
    (refund authorizationId batch used published counters).spent =
      counters.spent + (ended.cost - batch.cost) := by
  have hnone := hgood.unused hout
  have hrefund : refund authorizationId batch used published counters = { counters with
      mutationAttempts := counters.mutationAttempts - ((batch.reservedMutations : Int) - used)
      repairBatches := counters.repairBatches -
        if batch.kind = .repair ∧ published = false then 1 else 0
      answerBatches := counters.answerBatches -
        if batch.kind = .answer ∧ batch.stepId = none then 1 else 0 } := by
    unfold refund
    rw [hnone, if_neg (by simp), if_pos hgood.authorized]
  rw [hrefund]
  unfold Counters.spent Batch.cost Batch.repairing Batch.answering Batch.mutations
  rw [hkind, hended, hstep, hpublished, hused, hout, hnone]
  refine Prod.ext ?_ (Prod.ext ?_ ?_)
  · by_cases hrepair : batch.kind = .repair
    · by_cases hpub : published = true
      · simp [hrepair, hpub]
      · simp [hrepair, Bool.eq_false_iff.mpr hpub]
        omega
    · simp [hrepair]
  · by_cases hanswer : batch.kind = .answer
    · by_cases hbound : batch.stepId = none
      · simp [hanswer, hbound]
        omega
      · simp [hanswer, hbound, Option.isSome_iff_ne_none.mpr hbound]
    · simp [hanswer]
  · simp
    omega

/-- A batch that ends moves, whatever else is written into it. -/
theorem moves_of_end {batch ended : Batch} (hout : batch.outstanding = true)
    (hended : ended.outstanding = false) (hid : ended.id = batch.id)
    (hauthorized : ended.authorizationId = batch.authorizationId)
    (hstep : ended.stepId = batch.stepId) (hattempt : ended.attempt = batch.attempt)
    (hused : ended.usedMutations.isSome = true) : batch.Moves authorizationId ended where
  id := hid
  outstanding h := by
    rw [hended] at h
    cases h
  good hgood := by
    have hnot : ∀ state : BatchState, state.outstanding = true → ended.state ≠ state := by
      intro state hstate heq
      rw [Batch.outstanding_of heq, hstate] at hended
      cases hended
    constructor
    · exact hauthorized.trans hgood.authorized
    · rw [hended, Option.isNone_eq_false_iff.mpr hused]
    · exact fun h => absurd h (hnot .prepared rfl)
    · exact fun h => absurd h (hnot .accepted rfl)
  follows := by
    constructor
    · intro h
      rw [hout] at h
      cases h
    · exact fun _ => ⟨hstep, hattempt⟩

/-! ### Holds and takeovers -/

theorem cancelBatch_of_prepared (reason : Text) («at» : Time) {batch : Batch}
    (h : batch.state = .prepared) : (cancelBatch reason «at» batch).state = .cancelled ∧
      (cancelBatch reason «at» batch).id = batch.id ∧
      (cancelBatch reason «at» batch).kind = batch.kind ∧
      (cancelBatch reason «at» batch).authorizationId = batch.authorizationId ∧
      (cancelBatch reason «at» batch).stepId = batch.stepId ∧
      (cancelBatch reason «at» batch).attempt = batch.attempt ∧
      (cancelBatch reason «at» batch).published = batch.published ∧
      (cancelBatch reason «at» batch).usedMutations = batch.usedMutations.or (some 0) := by
  have hout : batch.outstanding = true := by
    unfold Batch.outstanding
    rw [h]
    rfl
  unfold cancelBatch
  rw [if_pos hout]
  dsimp only
  rw [if_pos h]
  exact ⟨rfl, rfl, rfl, rfl, rfl, rfl, rfl, rfl⟩

theorem cancelBatch_of_not_prepared (reason : Text) («at» : Time) {batch : Batch}
    (h : batch.state ≠ .prepared) : ∃ requested,
      cancelBatch reason «at» batch = { batch with cancellationRequestedAt := requested } ∧
      (batch.outstanding = false → cancelBatch reason «at» batch = batch) := by
  unfold cancelBatch
  by_cases hout : batch.outstanding = true
  · rw [if_pos hout]
    dsimp only
    rw [if_neg h]
    exact ⟨_, rfl, fun hended => by rw [hout] at hended; cases hended⟩
  · rw [if_neg hout]
    exact ⟨batch.cancellationRequestedAt, rfl, fun _ => rfl⟩

theorem cancelBatch_moves (reason : Text) («at» : Time) (batch : Batch) :
    batch.Moves authorizationId (cancelBatch reason «at» batch) := by
  by_cases hprepared : batch.state = .prepared
  · rcases cancelBatch_of_prepared reason «at» hprepared with
      ⟨hstate, hid, _, hauthorized, hstep, hattempt, _, hused⟩
    refine moves_of_end (Batch.outstanding_of hprepared) (Batch.outstanding_of hstate) hid
      hauthorized hstep hattempt ?_
    rw [hused]
    cases batch.usedMutations <;> rfl
  · rcases cancelBatch_of_not_prepared reason «at» hprepared with ⟨requested, heq, hended⟩
    constructor
    · rw [heq]
    · rw [heq]
      exact fun h => h
    · rw [heq]
      exact fun hgood => ⟨hgood.authorized, hgood.used, hgood.prepared, hgood.accepted⟩
    · refine ⟨hended, fun _ => ?_⟩
      rw [heq]
      exact ⟨rfl, rfl⟩

theorem cancelUndispatched_fair (reason : Text) («at» : Time) (record : Registration) :
    Fair record (cancelUndispatched reason «at» record) := by
  intro hsound
  refine hsound.rewrite rfl rfl (forall₂_map fun batch _ => cancelBatch_moves reason «at» batch) ?_
  refine foldl_tally Counters.spent Batch.cost (cancelBatch reason «at») ?_ record.counters
  intro counters batch hmem
  have hgood := hsound.good batch hmem
  by_cases hprepared : batch.state = .prepared
  · rw [if_pos hprepared]
    rcases cancelBatch_of_prepared reason «at» hprepared with
      ⟨hstate, _, hkind, _, hstep, _, hpublished, hused⟩
    have hout : batch.outstanding = true := Batch.outstanding_of hprepared
    refine refund_spent hgood hout hkind (Batch.outstanding_of hstate) hstep ?_ ?_ counters
    · rw [hpublished, (hgood.prepared hprepared).2]
    · rw [hused, hgood.unused hout]
      rfl
  · rw [if_neg hprepared]
    rcases cancelBatch_of_not_prepared reason «at» hprepared with ⟨requested, heq, _⟩
    have hcost : (cancelBatch reason «at» batch).cost = batch.cost := by
      rw [heq]
      rfl
    rw [hcost, sub_self, add_zero]

theorem takeOver_of_takenOver {batch : Batch} (h : takenOver w record batch = true) :
    (takeOver w record batch).state = .cancelled ∧
      (takeOver w record batch).id = batch.id ∧
      (takeOver w record batch).kind = batch.kind ∧
      (takeOver w record batch).authorizationId = batch.authorizationId ∧
      (takeOver w record batch).stepId = batch.stepId ∧
      (takeOver w record batch).attempt = batch.attempt ∧
      (takeOver w record batch).published = batch.published ∧
      (takeOver w record batch).usedMutations = batch.usedMutations.or (some 0) := by
  unfold takeOver
  rw [if_pos h]
  exact ⟨rfl, rfl, rfl, rfl, rfl, rfl, rfl, rfl⟩

/-- What was never dispatched is outstanding, and shows no publication. -/
theorem unpublished_of_neverDispatched {batch : Batch} (hgood : batch.Good authorizationId)
    (h : neverDispatched w record batch = true) :
    batch.outstanding = true ∧ batch.published = false := by
  unfold neverDispatched at h
  rw [Bool.or_eq_true] at h
  rcases h with hprepared | haccepted
  · have hprepared : batch.state = .prepared := by simpa using hprepared
    exact ⟨Batch.outstanding_of hprepared, (hgood.prepared hprepared).2⟩
  · rw [Bool.and_eq_true, Bool.and_eq_true] at haccepted
    have haccepted : batch.state = .accepted := by simpa using haccepted.1.1
    exact ⟨Batch.outstanding_of haccepted, (hgood.accepted haccepted).2.2⟩

theorem takeOverBatches_fair (record : Registration) : Fair record (takeOverBatches w record) := by
  intro hsound
  have htaken : ∀ batch ∈ record.batches, takenOver w record batch = true →
      batch.outstanding = true ∧ batch.published = false := by
    intro batch hmem htaken
    unfold takenOver at htaken
    rw [Bool.and_eq_true] at htaken
    exact unpublished_of_neverDispatched (hsound.good batch hmem) htaken.1
  refine hsound.rewrite rfl rfl (forall₂_map fun batch hmem => ?_) ?_
  · by_cases htake : takenOver w record batch = true
    · rcases takeOver_of_takenOver htake with
        ⟨hstate, hid, _, hauthorized, hstep, hattempt, _, hused⟩
      refine moves_of_end (htaken batch hmem htake).1 (Batch.outstanding_of hstate) hid
        hauthorized hstep hattempt ?_
      rw [hused]
      cases batch.usedMutations <;> rfl
    · unfold takeOver
      rw [if_neg htake]
      exact .refl _ _
  · refine foldl_tally Counters.spent Batch.cost (takeOver w record) ?_ record.counters
    intro counters batch hmem
    have hgood := hsound.good batch hmem
    by_cases htake : takenOver w record batch = true
    · rw [if_pos htake]
      rcases takeOver_of_takenOver htake with ⟨hstate, _, hkind, _, hstep, _, hpublished, hused⟩
      rcases htaken batch hmem htake with ⟨hout, hunpublished⟩
      refine refund_spent hgood hout hkind (Batch.outstanding_of hstate) hstep ?_ ?_ counters
      · rw [hpublished, hunpublished]
      · rw [hused, hgood.unused hout]
        rfl
    · rw [if_neg htake]
      have hsame : takeOver w record batch = batch := by
        unfold takeOver
        rw [if_neg htake]
      rw [hsame, sub_self, add_zero]

/-! ### Settlements -/

section Report

variable {unsent published : Bool} {update : Settlement} {batch : Batch}

theorem reportedBatch_outstanding (unsent published : Bool) (update : Settlement) (batch : Batch) :
    (reportedBatch w unsent published update batch).outstanding = !update.final := by
  unfold Settlement.final
  rw [Bool.not_not]
  exact Batch.outstanding_of rfl

theorem reportedBatch_frame (unsent published : Bool) (update : Settlement) (batch : Batch) :
    (reportedBatch w unsent published update batch).id = batch.id ∧
      (reportedBatch w unsent published update batch).kind = batch.kind ∧
      (reportedBatch w unsent published update batch).authorizationId = batch.authorizationId ∧
      (reportedBatch w unsent published update batch).stepId = batch.stepId ∧
      (reportedBatch w unsent published update batch).attempt = batch.attempt ∧
      (reportedBatch w unsent published update batch).reservedMutations =
        batch.reservedMutations := by
  unfold reportedBatch Batch.charge
  dsimp only
  split <;> exact ⟨rfl, rfl, rfl, rfl, rfl, rfl⟩

theorem reportedBatch_used (unsent published : Bool) (update : Settlement) (batch : Batch) :
    (reportedBatch w unsent published update batch).usedMutations =
      if update.final then batch.usedMutations.or (some (update.usedMutations.getD 0))
      else batch.usedMutations := by
  unfold reportedBatch Batch.charge
  dsimp only
  split <;> rfl

theorem reportedBatch_moves (hgood : batch.Good authorizationId)
    (hout : batch.outstanding = true) :
    batch.Moves authorizationId (reportedBatch w unsent published update batch) := by
  have hended := reportedBatch_outstanding (w := w) unsent published update batch
  have hused := reportedBatch_used (w := w) unsent published update batch
  rcases reportedBatch_frame (w := w) unsent published update batch with
    ⟨hid, _, hauthorized, hstep, hattempt, _⟩
  by_cases hfinal : update.final = true
  · rw [hfinal] at hended
    refine moves_of_end hout hended hid hauthorized hstep hattempt ?_
    rw [hused, if_pos hfinal, hgood.unused hout]
    rfl
  · rw [if_neg hfinal, hgood.unused hout] at hused
    rw [Bool.eq_false_iff.mpr hfinal] at hended
    constructor
    · exact hid
    · exact fun _ => hout
    · intro _
      -- The report is neither back to prepared nor to accepted.
      refine ⟨hauthorized.trans hgood.authorized, ?_, fun h => ?_, fun h => ?_⟩
      · rw [hended, hused]
        rfl
      · exact absurd h update.sent.1
      · exact absurd h update.sent.2
    · refine ⟨fun h => ?_, fun _ => ⟨hstep, hattempt⟩⟩
      rw [hout] at h
      cases h

/-- The report that does not end a batch leaves what it costs. -/
theorem reportedBatch_cost (hout : batch.outstanding = true)
    (hfinal : update.final = false) :
    (reportedBatch w unsent published update batch).cost = batch.cost := by
  have hended := reportedBatch_outstanding (w := w) unsent published update batch
  have hused := reportedBatch_used (w := w) unsent published update batch
  rcases reportedBatch_frame (w := w) unsent published update batch with
    ⟨_, hkind, _, hstep, _, hreserved⟩
  rw [hfinal] at hended hused
  unfold Batch.cost Batch.repairing Batch.answering Batch.mutations
  rw [hended, hused, hkind, hstep, hreserved, hout]
  simp

theorem recordSettlement_fair (hbatch : record.batch update.batchId = some batch)
    (hout : batch.outstanding = true) :
    Fair record (recordSettlement w unsent batch update record) := by
  intro hsound
  have hgood : batch.Good record.authorization.id :=
    hsound.good batch (List.mem_of_find?_eq_some hbatch)
  refine hsound.rewrite rfl rfl (forall₂_setFirst (Batch.Moves.refl _) ?_) ?_
  · intro found hfound
    have hsame : found = batch := by
      unfold Registration.batch at hbatch
      rw [hbatch] at hfound
      exact (Option.some.inj hfound).symm
    rw [hsame]
    exact reportedBatch_moves hgood hout
  · have htally := tally_setFirst hbatch Batch.cost
      (reportedBatch w unsent (publishedBy record update) update)
    have hbatches : (recordSettlement w unsent batch update record).batches =
        First.setFirst (fun entry => entry.id = update.batchId)
          (reportedBatch w unsent (publishedBy record update) update) record.batches := rfl
    rw [hbatches, htally]
    -- A final report gives back what the batch reserved and did not use.
    have hcounters : (recordSettlement w unsent batch update record).counters =
        if update.final then
          refund record.authorization.id batch (update.usedMutations.getD 0)
            (publishedBy record update) record.counters
        else record.counters := rfl
    rw [hcounters]
    by_cases hfinal : update.final = true
    · rw [if_pos hfinal]
      rcases reportedBatch_frame (w := w) unsent (publishedBy record update) update batch with
        ⟨_, hkind, _, hstep, _, _⟩
      have hended := reportedBatch_outstanding (w := w) unsent (publishedBy record update) update
        batch
      have hused := reportedBatch_used (w := w) unsent (publishedBy record update) update batch
      rw [hfinal] at hended
      rw [if_pos hfinal, hgood.unused hout] at hused
      have hrefund : (refund record.authorization.id batch (update.usedMutations.getD 0)
          (publishedBy record update) record.counters).spent = _ :=
        refund_spent hgood hout hkind hended hstep rfl hused record.counters
      rw [hrefund]
      abel
    · rw [if_neg hfinal, reportedBatch_cost hout (Bool.eq_false_iff.mpr hfinal)]
      abel

end Report

theorem fair_law : Law w Fair where
  refl := .refl
  trans := .trans
  quiet := Quiet.fair
  record := recordSettlement_fair
  cancel := cancelUndispatched_fair

/-! ### The lead's actions -/

theorem validateEffect_used {action : Effect} (h : validateEffect action = .ok ()) :
    unsettledEffect action = true → ∀ used, action.usedAttempts = some used →
      used = action.attempts := by
  intro hunsettled used hused
  unfold validateEffect at h
  rcases unless_ok h with ⟨hallowed, _⟩
  rw [hused, Option.any_some] at hallowed
  by_contra hne
  refine hallowed ?_
  simp [hunsettled, hne]

theorem validateEffects_one {action : Effect} (h : validateEffects [action] = .ok ()) :
    validateEffect action = .ok () := by
  unfold validateEffects at h
  rcases unless_ok h with ⟨_, h⟩
  exact forM_ok h action List.mem_cons_self

theorem preserveEffects_one {prior action : Effect} (hkey : action.key = prior.key)
    (h : preserveEffects [prior] [action] = .ok ()) : prior.preserved action = true := by
  unfold preserveEffects at h
  have hone := forM_ok h prior List.mem_cons_self
  rw [List.find?_cons, decide_eq_true hkey] at hone
  dsimp only at hone
  split at hone
  · assumption
  · cases hone

/-- What an effect that is told of again keeps. -/
theorem preserved_frame {prior action : Effect} (h : prior.preserved action = true) :
    prior.attempts = action.attempts ∧
      (unsettledEffect prior = false →
        prior.used = action.used ∧ unsettledEffect action = false) := by
  unfold Effect.preserved at h
  simp only [Bool.and_eq_true, Bool.or_eq_true, decide_eq_true_eq] at h
  rcases h with ⟨⟨⟨⟨⟨_, hattempts⟩, hused⟩, _⟩, hknown⟩, hnotPerformed⟩
  refine ⟨hattempts, fun hsettled => ⟨hused.resolve_left (by rw [hsettled]; exact nofun), ?_⟩⟩
  unfold unsettledEffect at hsettled ⊢
  cases hstate : prior.state with
  | reserved => simp [hstate] at hsettled
  | uncertain => simp [hstate] at hsettled
  | known => simp [hknown.resolve_left (not_not.mpr hstate)]
  | notPerformed => simp [hnotPerformed.resolve_left (not_not.mpr hstate)]

/-- What the assignment of an effect changes of its cost is what is given back. -/
theorem assign_cost {prior action : Effect} (h : prior.preserved action = true)
    (hreserved : unsettledEffect prior = true → prior.used = prior.attempts) :
    (prior.assign action).cost - prior.cost = (0, 0,
      -(if unsettledEffect prior = true ∧ unsettledEffect action = false then
        (prior.attempts : Int) - action.usedAttempts.getD prior.attempts
      else 0)) := by
  rcases preserved_frame h with ⟨hattempts, hsettled⟩
  have hstate : unsettledEffect (prior.assign action) = unsettledEffect action := rfl
  have hassigned : (prior.assign action).used =
      (action.usedAttempts.or prior.usedAttempts).getD action.attempts := rfl
  unfold Effect.cost Effect.mutations
  rw [hstate, hassigned]
  refine Prod.ext (by simp) (Prod.ext (by simp) ?_)
  by_cases hprior : unsettledEffect prior = true
  · have hopen := hreserved hprior
    by_cases haction : unsettledEffect action = true
    · simp [hprior, haction, hattempts, Effect.assign]
    · have haction := Bool.eq_false_iff.mpr haction
      cases hused : action.usedAttempts with
      | some used =>
          simp [hprior, haction]
      | none =>
          unfold Effect.used at hopen
          rw [← hattempts]
          simp [hprior, haction, hopen]
  · have hprior := Bool.eq_false_iff.mpr hprior
    rcases hsettled hprior with ⟨hused, haction⟩
    have hkept : (action.usedAttempts.or prior.usedAttempts).getD action.attempts =
        prior.used := by
      unfold Effect.used at hused ⊢
      cases haction : action.usedAttempts with
      | some used =>
          rw [haction] at hused
          exact hused.symm
      | none => rw [Option.none_or, ← hattempts]
    rw [hkept]
    simp [hprior, haction]

theorem effect_fair {action : Effect} (h : PrMaintenance.effect w action record = .ok next) :
    Fair record next := by
  rcases effect_ok h with ⟨hvalid, hcases⟩
  have hvalid := validateEffects_one hvalid
  intro hsound
  rcases hcases with rfl | ⟨prior, hfind, hpreserved, rfl⟩ | ⟨_, hadmitted, rfl⟩
  · exact ⟨hsound, .refl _⟩
  · -- A known effect replaces its row: the cost moves by what `assign` changes.
    have hkey : prior.key = action.key := by simpa using List.find?_some hfind
    have hpreserved := preserveEffects_one hkey.symm hpreserved
    have hprior := hsound.reserved prior (List.mem_of_find?_eq_some hfind)
    refine ⟨⟨hsound.authorized, hsound.nodup, hsound.single, hsound.good, ?_, ?_⟩, .refl _⟩
    · intro effect hmem hunsettled
      rcases First.mem_setFirst hmem with hmem | ⟨found, hfound, rfl⟩
      · exact hsound.reserved effect hmem hunsettled
      · rw [hfind] at hfound
        cases hfound
        have haction : unsettledEffect action = true := hunsettled
        have hopen : unsettledEffect prior = true := by
          by_contra hnot
          have hsettled := (preserved_frame hpreserved).2 (Bool.eq_false_iff.mpr hnot)
          rw [hsettled.2] at haction
          cases haction
        have hattempts := (preserved_frame hpreserved).1
        show (action.usedAttempts.or prior.usedAttempts).getD action.attempts = action.attempts
        cases hused : action.usedAttempts with
        | some used => exact validateEffect_used hvalid haction used hused
        | none =>
            rw [Option.none_or, ← hattempts]
            exact hprior hopen
    · have htally := tally_setFirst hfind Effect.cost (fun prior => prior.assign action)
      rw [assign_cost hpreserved hprior] at htally
      show Counters.spent _ = tally Batch.cost record.batches +
        tally Effect.cost (First.setFirst _ _ record.actions)
      rw [htally, ← add_assoc, ← hsound.spent]
      unfold Counters.spent
      simp only [Prod.mk_add_mk, add_zero, sub_eq_add_neg]
  · -- A new effect is admitted open, and its whole cost counts at once.
    unfold admitEffect at hadmitted
    rcases unless_ok hadmitted with ⟨_, hadmitted⟩
    rcases unless_ok hadmitted with ⟨hstate, _⟩
    have hopen : unsettledEffect action = true := by
      unfold unsettledEffect
      simp [not_not.mp hstate]
    refine ⟨⟨hsound.authorized, hsound.nodup, hsound.single, hsound.good, ?_, ?_⟩, .refl _⟩
    · intro effect hmem hunsettled
      rcases List.mem_append.mp hmem with hmem | hmem
      · exact hsound.reserved effect hmem hunsettled
      · rw [List.mem_singleton] at hmem
        subst hmem
        unfold Effect.used
        cases hused : effect.usedAttempts with
        | some used => exact validateEffect_used hvalid hunsettled used hused
        | none => rfl
    · show Counters.spent _ = tally Batch.cost record.batches +
        tally Effect.cost (record.actions ++ [action])
      rw [tally_append, tally_cons, tally_nil, add_zero, ← add_assoc, ← hsound.spent]
      unfold Counters.spent Effect.cost Effect.mutations
      rw [if_pos hopen]
      simp

/-! ### Preparing and accepting -/

/-- Work is prepared only where everything else is settled. -/
theorem settled_of_admitBatch {prepared : PreparedBatch} (h : admitBatch w record prepared = .ok ()) :
    unsettled record = false := by
  unfold admitBatch at h
  rcases unless_ok h with ⟨_, h⟩
  cases hhold : record.hold with
  | some hold =>
      rw [hhold] at h
      cases h
  | none =>
      rw [hhold] at h
      rcases unless_ok h with ⟨_, h⟩
      cases hbinding : w.binding record with
      | some reason =>
          rw [hbinding] at h
          cases h
      | none =>
          rw [hbinding] at h
          rcases unless_ok h with ⟨hunsettled, _⟩
          exact Bool.eq_false_iff.mpr hunsettled

theorem prepareBatch_fair {prepared : PreparedBatch} {workOrder : Option Text}
    (h : prepareBatch w prepared workOrder record = .ok (some next)) : Fair record next := by
  rcases prepareBatch_ok h with ⟨hnew, hadmitted, hnext⟩
  have hsettled := settled_of_admitBatch hadmitted
  intro hsound
  subst hnext
  -- The new batch is outstanding, and it pays for itself in the limit of its kind.
  have hout : (newBatch record prepared workOrder).outstanding = true := rfl
  constructor
  · constructor
    · exact hsound.authorized
    · show ((record.batches ++ [newBatch record prepared workOrder]).map (·.id)).Nodup
      rw [List.map_append, List.map_singleton]
      refine hsound.nodup.append (List.nodup_singleton _) ?_
      intro id hid hmem
      rw [List.mem_singleton] at hmem
      rcases List.mem_map.mp hid with ⟨batch, hbatch, heq⟩
      have hno := List.find?_eq_none.mp hnew batch hbatch
      exact hno (decide_eq_true (heq.trans hmem))
    · show (record.batches ++ [newBatch record prepared workOrder]).countP Batch.outstanding ≤ 1
      -- A batch is admitted only when every other is settled.
      have hnone : record.batches.countP Batch.outstanding = 0 := by
        rw [List.countP_eq_zero]
        intro batch hbatch
        rw [outstanding_of_settled hsettled batch hbatch]
        exact nofun
      rw [List.countP_append, hnone, List.countP_singleton, if_pos hout]
    · intro batch hmem
      rcases List.mem_append.mp hmem with hmem | hmem
      · exact hsound.good batch hmem
      · rw [List.mem_singleton] at hmem
        subst hmem
        exact ⟨rfl, rfl, fun _ => ⟨rfl, rfl⟩, nofun⟩
    · exact hsound.reserved
    · show Counters.spent _ = tally Batch.cost (record.batches ++ _) + tally Effect.cost _
      rw [tally_append, tally_cons, tally_nil, add_zero, add_right_comm, ← hsound.spent]
      unfold Counters.spent Batch.cost Batch.repairing Batch.answering
      rw [hout]
      refine Prod.ext ?_ (Prod.ext ?_ rfl)
      · show _ = _ + (if (decide (prepared.kind = .repair) && (true || _)) = true then (1 : Int)
          else 0)
        simp
      · show _ = _ + (if (decide (prepared.kind = .answer) && (true || _)) = true then (1 : Int)
          else 0)
        simp
  · intro batchId batch hbatch
    refine ⟨batch, ?_, .refl batch⟩
    show (record.batches ++ [newBatch record prepared workOrder]).find? _ = some batch
    rw [List.find?_append]
    unfold Registration.batch at hbatch
    rw [hbatch]
    rfl

theorem bindBatch_fair {batch : Batch} {batchId stepId : Text} {attempt : Nat}
    (hbatch : record.batch batchId = some batch) (hstep : batch.stepId = none)
    (hstate : batch.state = .prepared) :
    Fair record (bindBatch batchId stepId attempt record) := by
  intro hsound
  have hgood := hsound.good batch (List.mem_of_find?_eq_some hbatch)
  have hout : batch.outstanding = true := Batch.outstanding_of hstate
  refine hsound.rewrite rfl rfl (forall₂_setFirst (Batch.Moves.refl _) ?_) ?_
  · intro found hfound
    unfold Registration.batch at hbatch
    rw [hbatch] at hfound
    cases hfound
    constructor
    · rfl
    · exact fun _ => hout
    · intro _
      refine ⟨hgood.authorized, ?_, nofun, fun _ => ⟨rfl, rfl, (hgood.prepared hstate).2⟩⟩
      show true = batch.usedMutations.isNone
      rw [hgood.unused hout]
      rfl
    · constructor
      · intro hended
        rw [hout] at hended
        cases hended
      · intro hbound
        rw [hstep] at hbound
        cases hbound
  · have htally := tally_setFirst hbatch Batch.cost fun entry => { entry with
      state := .accepted
      stepId := some stepId
      attempt := some attempt }
    have hbatches : (bindBatch batchId stepId attempt record).batches = _ := rfl
    rw [hbatches]
    unfold bindBatch
    dsimp only
    rw [htally]
    -- Bound, the batch costs what it cost: both states are outstanding.
    have hcost : Batch.cost { batch with
        state := .accepted
        stepId := some stepId
        attempt := some attempt } = batch.cost := by
      unfold Batch.cost Batch.repairing Batch.answering Batch.mutations
      rw [hout, hstep]
      rfl
    rw [hcost]
    abel

/-! ### Every act, and every run -/

theorem Act.Own.fair (h : Act.Own w record next) : Fair record next := by
  cases h with
  | prepare hprepared => exact prepareBatch_fair hprepared
  | accept stepId attempt hbatch hstep hstate => exact bindBatch_fair hbatch hstep hstate
  | effect hacted => exact effect_fair hacted
  | ready _ => exact fun h => ⟨⟨h.authorized, h.nodup, h.single, h.good, h.reserved, h.spent⟩, .refl _⟩
  | takeOver => exact takeOverBatches_fair record
  | authorize authorization history evidence hscope _ =>
      -- Only a registration that may not publish is authorized again.
      intro hsound
      rw [hsound.authorized] at hscope
      cases hscope

theorem Act.fair (h : Act w cause record next) : Fair record next := fair_law.act Act.Own.fair h

theorem Acts.fair (h : Acts w cause record next) : Fair record next := by
  induction h with
  | refl => exact .refl record
  | tail _ hact ih => exact ih.trans hact.fair

theorem Enabled.sound (h : Enabled w record) : Sound record := by
  rcases h with ⟨input, operatorId, sourceProposal, generation, task, worker, rfl⟩
  have hnew : Sound (newRegistration w input operatorId sourceProposal generation task worker) :=
    ⟨input.authorized, List.nodup_nil, Nat.zero_le _, fun _ hmem => (nomatch hmem),
      fun _ hmem => (nomatch hmem), rfl⟩
  unfold enabled
  split
  · exact (fair_law.setHold (w := w) _ _ _ _ _ hnew).1
  · split
    · exact (fair_law.setHold (w := w) _ _ _ _ _ hnew).1
    · exact ((requestReview_kept _ _ _ _).quiet.fair hnew).1

/-- Every registration of the registry is sound. -/
def Store.Sound (store : Store) : Prop :=
  ∀ id record, store.records.get id = some record → PrMaintenance.Sound record

theorem step_fair {store : Store} (h : store.Sound) (call : World × Operation) :
    (step store call).Sound ∧ ∀ id record, store.records.get id = some record →
      ∃ next, (step store call).records.get id = some next ∧ Follows record next := by
  constructor
  · intro id next hnext
    have hbecomes := step_becomes store call id
    rw [hnext] at hbecomes
    generalize hbefore : store.records.get id = before at hbecomes
    cases hbecomes with
    | acts hacts => exact (hacts.fair (h id _ hbefore)).1
    | enabled hnew hacts => exact (hacts.fair hnew.sound).1
  · intro id record hrecord
    have hbecomes := step_becomes store call id
    rw [hrecord] at hbecomes
    generalize hafter : (step store call).records.get id = after at hbecomes
    cases hbecomes with
    | @acts record next hacts => exact ⟨next, rfl, (hacts.fair (h id record hrecord)).2⟩

/-- The registry after these calls. -/
def reached (calls : List (World × Operation)) : Store := Run.final step {} calls

theorem reached_sound (calls : List (World × Operation)) : (reached calls).Sound :=
  Run.invariant step Store.Sound (fun _ call h => (step_fair h call).1) calls {}
    fun _ _ h => (nomatch h)

/-- From then on, every registration is there, and its batches follow. -/
theorem final_follows {store : Store} (h : store.Sound) (calls : List (World × Operation))
    {id : Text} (hrecord : store.records.get id = some record) :
    ∃ later, (Run.final step store calls).records.get id = some later ∧ Follows record later := by
  induction calls generalizing store record with
  | nil => exact ⟨record, hrecord, .refl record⟩
  | cons call rest ih =>
      rcases step_fair h call with ⟨hsound, hnext⟩
      rcases hnext id record hrecord with ⟨next, hget, hfollows⟩
      rcases ih hsound hget with ⟨later, hlater, hfollows'⟩
      exact ⟨later, hlater, hfollows.trans hfollows'⟩

theorem tally_batches (batches : List Batch) :
    tally Batch.cost batches = ((batches.countP Batch.repairing : Int),
      (batches.countP Batch.answering : Int), ((batches.map Batch.mutations).sum : Int)) := by
  induction batches with
  | nil => rfl
  | cons batch rest ih =>
      rw [tally_cons, ih, List.countP_cons, List.countP_cons, List.map_cons, List.sum_cons]
      unfold Batch.cost
      refine Prod.ext ?_ (Prod.ext ?_ ?_)
      · by_cases h : batch.repairing = true
        · simp [h]
          omega
        · simp [h]
      · by_cases h : batch.answering = true
        · simp [h]
          omega
        · simp [h]
      · simp

theorem tally_actions (actions : List Effect) :
    tally Effect.cost actions = (0, 0, ((actions.map Effect.mutations).sum : Int)) := by
  induction actions with
  | nil => rfl
  | cons effect rest ih =>
      rw [tally_cons, ih, List.map_cons, List.sum_cons]
      unfold Effect.cost
      simp

/-- The counters are what the claims on them say, and so never negative. -/
theorem Sound.counters (h : Sound record) :
    record.counters.repairBatches = record.batches.countP Batch.repairing ∧
      record.counters.answerBatches = record.batches.countP Batch.answering ∧
      record.counters.mutationAttempts =
        (record.batches.map Batch.mutations).sum + (record.actions.map Effect.mutations).sum := by
  have hspent := h.spent
  rw [tally_batches, tally_actions] at hspent
  unfold Counters.spent at hspent
  simp only [Prod.mk_add_mk, add_zero, Prod.mk.injEq] at hspent
  exact hspent

/-- In every run at most one batch is outstanding, an accepted batch is bound to
    one attempt at one step, the counters are sums over the batches and actions,
    and no batch that has ended ever changes. -/
theorem batches_kept (calls more : List (World × Operation)) {id : Text}
    (h : (reached calls).records.get id = some record) :
    record.batches.countP Batch.outstanding ≤ 1 ∧ (record.batches.map (·.id)).Nodup ∧
      (∀ batch ∈ record.batches, batch.state = .accepted →
        batch.stepId.isSome = true ∧ batch.attempt.isSome = true) ∧
      record.counters.repairBatches = record.batches.countP Batch.repairing ∧
      record.counters.answerBatches = record.batches.countP Batch.answering ∧
      record.counters.mutationAttempts =
        (record.batches.map Batch.mutations).sum + (record.actions.map Effect.mutations).sum ∧
      0 ≤ record.counters.repairBatches ∧ 0 ≤ record.counters.answerBatches ∧
      0 ≤ record.counters.mutationAttempts ∧
      ∃ later, (reached (calls ++ more)).records.get id = some later ∧ Follows record later := by
  have hsound := reached_sound calls id record h
  rcases hsound.counters with ⟨hrepairs, hanswers, hmutations⟩
  refine ⟨hsound.single, hsound.nodup, fun batch hmem haccepted => ?_, hrepairs, hanswers,
    hmutations, ?_, ?_, ?_, ?_⟩
  · rcases (hsound.good batch hmem).accepted haccepted with ⟨hstep, hattempt, _⟩
    exact ⟨hstep, hattempt⟩
  · omega
  · omega
  · omega
  · unfold reached
    rw [Run.final_append]
    exact final_follows (reached_sound calls) more h

/-- Work is observed and prepared. -/
def preparedOnce : List (World × Operation) :=
  [(quiet, .enable quietInput (ofString "operator")),
    (quiet, .checkpoint (ofString "lead") (ofString "record") 1
      (.observation quietObservation) none),
    (quiet, .checkpoint (ofString "lead") (ofString "record") 2
      (.prepareBatch quietBatch none) none)]

/-- The batch's step runs on the worker. -/
def running : World :=
  { quiet with
    step := fun _ => some {
      id := ofString "step"
      runId := ofString "task"
      sessionId := some (ofString "worker")
      state := .running
      attempts := 1
      prompt := ofString "Fix it."
      dispatched := true } }

def acceptedOnce : List (World × Operation) :=
  preparedOnce ++ [(running, .acceptBatch (ofString "lead") (ofString "record") 1
    (ofString "batch") (ofString "step") 1 (ofString "Fix it."))]

/-- The step is over. -/
def finished : World :=
  { quiet with
    step := fun id => (running.step id).map fun step => { step with state := .succeeded } }

/-- A report on the batch, with what is told of its source. -/
def repairReport (state : BatchState) (sent : state ≠ .prepared ∧ state ≠ .accepted)
    (settled : Bool) (finding : Finding) : Settlement where
  batchId := ofString "batch"
  generation := 1
  state := state
  findings := [finding]
  effects := []
  executionSettled := settled
  evidence := ofString "looked"
  usedMutations := if settled then some 1 else none
  published := settled
  sent := sent

def repairedFinding : Finding where
  source := quietSource
  outcome := .addressed
  stage := .replied
  evidence := [ofString "Tests pass."]
  responseIds := [ofString "reply"]

/-- The batch is accepted, reconciled and settled. -/
def settledOnce : List (World × Operation) :=
  acceptedOnce ++
    [(running, .checkpoint (ofString "lead") (ofString "record") 4 (.batch
        (repairReport .reconciling ⟨nofun, nofun⟩ false
          { repairedFinding with outcome := .incomplete, stage := .modified, responseIds := [] }))
        none),
      (finished, .checkpoint (ofString "lead") (ofString "record") 5 (.batch
        (repairReport .succeeded ⟨nofun, nofun⟩ true repairedFinding)) none)]

/-- It is observed once more, and another batch is prepared. -/
def preparedAgain : List (World × Operation) :=
  [(finished, .checkpoint (ofString "lead") (ofString "record") 6
      (.observation { quietObservation with fingerprint := some (ofString "other") }) none),
    (finished, .checkpoint (ofString "lead") (ofString "record") 7
      (.prepareBatch { quietBatch with id := ofString "second" } none) none)]

theorem batches_kept_settledOnce : ∃ record later,
    (reached settledOnce).records.get (ofString "record") = some record ∧
      (reached (settledOnce ++ preparedAgain)).records.get (ofString "record") = some later ∧
      record.batches.map (·.state) = [.succeeded] ∧
      later.batches.map (·.state) = [.succeeded, .prepared] ∧
      record.counters.repairBatches = record.batches.countP Batch.repairing ∧
      record.counters.mutationAttempts =
        (record.batches.map Batch.mutations).sum + (record.actions.map Effect.mutations).sum ∧
      Follows record later := by
  have hfound : ((reached settledOnce).records.get (ofString "record")).any (fun record =>
      record.batches.map (·.state) = [.succeeded]) = true := by
    decide +kernel
  have hthen : ((reached (settledOnce ++ preparedAgain)).records.get (ofString "record")).any
      (fun record => record.batches.map (·.state) = [.succeeded, .prepared]) = true := by
    decide +kernel
  rw [Option.any_eq_true] at hfound hthen
  rcases hfound with ⟨record, h, hstates⟩
  rcases hthen with ⟨later, hlater, hstates'⟩
  rcases batches_kept settledOnce preparedAgain h with
    ⟨_, _, _, hrepairs, _, hmutations, _, _, _, later', hlater', hfollows⟩
  rw [hlater, Option.some.injEq] at hlater'
  rw [← hlater'] at hfollows
  exact ⟨record, later, h, hlater, of_decide_eq_true hstates, of_decide_eq_true hstates', hrepairs,
    hmutations, hfollows⟩

end PrMaintenance

end CopilotFleet
