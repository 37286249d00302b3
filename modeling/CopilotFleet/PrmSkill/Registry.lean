import CopilotFleet.PrmSkill.Readiness
import Mathlib.Data.List.Basic

/-!
# The Registry of Maintained Pull Requests

What holds of a store whatever commands it was given, in whatever order a
person gave them. A job works on one batch at a time. Its budgets say how many
batches it has planned and not cancelled, and a batch is planned only while
there is budget left. No two jobs that are still maintained are pinned to the
same head branch. A batch is named by its job and its number, which is the name
of no other batch.

A pass hands out visits and provider requests. What is left of them is on the
pass itself; what was handed out and what was given back is kept here beside
the store, as an account that is opened with the pass.

## Main definitions

* `batchName`: The name of a batch, by its job and its number.
* `Job.Counted`: The batches and budgets of a job agree.
* `Identity.Same`: The same head branch.
* `Store.Registered`: Every job is counted, and no branch has two jobs.
* `Account`: What a pass has handed out.
* `Accounted`: What is left of a pass agrees with its account.

## Theorems

* `batchName_inj`: Batches are told apart by their names.
* `mutate_registered`: Every command keeps the registry.
* `enter_accounted`: Every command keeps the account.
* `registry_kept`: In every run, all of it together.
-/

namespace CopilotFleet

namespace PrmSkill

open Utf16

/-! ### Names of batches -/

def isDigit (u : UInt16) : Bool := 0x30 ≤ u && u ≤ 0x39

theorem decimal_eq (n : Nat) :
    decimal n = (Nat.toDigits 10 n).map fun c => UInt16.ofNat c.toNat := by
  have hunits : ∀ cs : List Char, (∀ c ∈ cs, c.isDigit = true) →
      cs.flatMap units = cs.map fun c => UInt16.ofNat c.toNat := by
    intro cs hcs
    induction cs with
    | nil => rfl
    | cons c cs ih =>
        have hhigh := (Char.isDigit_iff_toNat.mp (hcs c List.mem_cons_self)).2
        have hhigh : c.toNat ≤ 0x39 := hhigh
        rw [List.flatMap_cons, List.map_cons, ih fun d hd => hcs d (List.mem_cons_of_mem c hd)]
        unfold units
        rw [if_pos (by omega)]
        rfl
  unfold decimal ofString
  rw [Nat.toString_eq_ofList_toDigits, String.toList_ofList]
  exact hunits _ fun c hc => Nat.isDigit_of_mem_toDigits (by decide) (by decide) hc

theorem isDigit_decimal {n : Nat} {u : UInt16} (hu : u ∈ decimal n) : isDigit u = true := by
  rw [decimal_eq] at hu
  rcases List.mem_map.mp hu with ⟨c, hc, rfl⟩
  have hdigit := Char.isDigit_iff_toNat.mp (Nat.isDigit_of_mem_toDigits (by decide) (by decide) hc)
  have hlow : 0x30 ≤ c.toNat := hdigit.1
  have hhigh : c.toNat ≤ 0x39 := hdigit.2
  have hnat : (UInt16.ofNat c.toNat).toNat = c.toNat :=
    UInt16.toNat_ofNat_of_lt' (Nat.lt_of_le_of_lt hhigh (by decide))
  unfold isDigit
  simp only [UInt16.le_iff_toNat_le, hnat, Bool.and_eq_true, decide_eq_true_eq]
  exact ⟨hlow, hhigh⟩

theorem decimal_inj {m n : Nat} (h : decimal m = decimal n) : m = n := by
  have hdigits : ∀ cs ds : List Char, (∀ c ∈ cs, c.isDigit = true) → (∀ d ∈ ds, d.isDigit = true) →
      (cs.map fun c => UInt16.ofNat c.toNat) = (ds.map fun c => UInt16.ofNat c.toNat) → cs = ds := by
    intro cs
    induction cs with
    | nil =>
        intro ds _ _ heq
        exact (List.map_eq_nil_iff.mp heq.symm).symm
    | cons c cs ih =>
        intro ds hcs hds heq
        cases ds with
        | nil => cases heq
        | cons d ds =>
            rw [List.map_cons, List.map_cons, List.cons.injEq] at heq
            have hc : c.toNat ≤ 0x39 := (Char.isDigit_iff_toNat.mp (hcs c List.mem_cons_self)).2
            have hd : d.toNat ≤ 0x39 := (Char.isDigit_iff_toNat.mp (hds d List.mem_cons_self)).2
            have hnat := congrArg UInt16.toNat heq.1
            rw [UInt16.toNat_ofNat_of_lt' (Nat.lt_of_le_of_lt hc (by decide)),
              UInt16.toNat_ofNat_of_lt' (Nat.lt_of_le_of_lt hd (by decide))] at hnat
            rw [Char.toNat_inj.mp hnat, ih ds (fun e he => hcs e (List.mem_cons_of_mem c he))
              (fun e he => hds e (List.mem_cons_of_mem d he)) heq.2]
  rw [decimal_eq, decimal_eq] at h
  have hsame := hdigits _ _
    (fun c hc => Nat.isDigit_of_mem_toDigits (by decide) (by decide) hc)
    (fun c hc => Nat.isDigit_of_mem_toDigits (by decide) (by decide) hc) h
  rw [← Nat.ofDigitChars_ten_toDigits (n := m), hsame, Nat.ofDigitChars_ten_toDigits]

/-- A number behind a mark is read back, where the mark does not end with a digit. -/
theorem decimal_behind {name name' mark : Text} {n n' : Nat}
    (hmark : mark.reverse.takeWhile isDigit = [] ∧ mark ≠ [])
    (h : name ++ (mark ++ decimal n) = name' ++ (mark ++ decimal n')) : name = name' ∧ n = n' := by
  have hread : ∀ (name : Text) (n : Nat),
      (name ++ (mark ++ decimal n)).reverse.takeWhile isDigit = (decimal n).reverse := by
    intro name n
    rw [List.reverse_append, List.reverse_append, List.append_assoc,
      List.takeWhile_append_of_pos fun u hu => isDigit_decimal (List.mem_reverse.mp hu)]
    -- The mark stops the digits.
    cases hletters : mark.reverse with
    | nil => exact absurd (List.reverse_eq_nil_iff.mp hletters) hmark.2
    | cons u rest =>
        have hstops := hmark.1
        rw [hletters, List.takeWhile_cons] at hstops
        rw [List.cons_append, List.takeWhile_cons]
        cases hu : isDigit u with
        | false => simp
        | true => simp [hu] at hstops
  have hdecimal : decimal n = decimal n' := by
    have hsame := congrArg (fun text : Text => text.reverse.takeWhile isDigit) h
    simp only [hread] at hsame
    exact List.reverse_inj.mp hsame
  rw [hdecimal] at h
  exact ⟨List.append_cancel_right h, decimal_inj hdecimal⟩

/-- The name of a batch, by its job and its number. -/
def batchName (jobId : Text) (n : Nat) : Text := jobId ++ (ofString "-b" ++ decimal n)

theorem batchName_inj {jobId jobId' : Text} {n n' : Nat}
    (h : batchName jobId n = batchName jobId' n') : jobId = jobId' ∧ n = n' :=
  decimal_behind ⟨by decide, by decide⟩ h

/-! ### Batches and budgets -/

/-- The batches and budgets of a job agree. -/
structure Job.Counted (job : Job) : Prop where
  single : job.batches.countP (fun batch => batch.state.outstanding) ≤ 1
  unprepared : ∀ batch ∈ job.batches, batch.state ≠ .prepared
  spent : ∀ kind, job.batches.countP (fun batch => batch.kind = kind && batch.state ≠ .cancelled) =
    (job.budgets.ofKind kind).used
  within : ∀ kind, (job.budgets.ofKind kind).used ≤ (job.budgets.ofKind kind).limit
  named : job.batches.map (·.batchId) =
    (List.range job.batches.length).map fun i => batchName job.jobId (i + 1)

/-- Nothing of a job that the registry goes by is changed. -/
structure Job.Kept (job job' : Job) : Prop where
  jobId : job'.jobId = job.jobId
  batches : job'.batches = job.batches
  kinds : ∀ kind, job'.budgets.ofKind kind = job.budgets.ofKind kind
  identity : job'.identity = job.identity
  released : job'.released = false → job.released = false

theorem Job.Kept.refl (job : Job) : job.Kept job := ⟨rfl, rfl, fun _ => rfl, rfl, id⟩

theorem Job.Kept.trans {a b c : Job} (hab : a.Kept b) (hbc : b.Kept c) : a.Kept c where
  jobId := hbc.jobId.trans hab.jobId
  batches := hbc.batches.trans hab.batches
  kinds kind := (hbc.kinds kind).trans (hab.kinds kind)
  identity := hbc.identity.trans hab.identity
  released h := hab.released (hbc.released h)

theorem Job.Counted.kept {job job' : Job} (h : job.Counted) (hkept : job.Kept job') :
    job'.Counted := by
  refine ⟨?_, ?_, fun kind => ?_, fun kind => ?_, ?_⟩
  · rw [hkept.batches]
    exact h.single
  · rw [hkept.batches]
    exact h.unprepared
  · rw [hkept.batches, hkept.kinds]
    exact h.spent kind
  · rw [hkept.kinds]
    exact h.within kind
  · rw [hkept.batches, hkept.jobId]
    exact h.named

theorem outstandingBatch_isSome {job : Job} :
    (outstandingBatch job).isSome = false ↔
      job.batches.countP (fun batch => batch.state.outstanding) = 0 := by
  unfold outstandingBatch
  rw [Bool.eq_false_iff, ne_eq, List.find?_isSome, List.countP_eq_zero]
  simp

/-- The batch of an id is rewritten where it stands. -/
theorem setBatch_split {batchId : Text} {batch : Batch} {batches : List Batch}
    (h : batches.find? (fun batch => batch.batchId = batchId) = some batch) (f : Batch → Batch) :
    ∃ before after, batches = before ++ batch :: after ∧
      setBatch batchId f batches = before ++ f batch :: after := by
  induction batches with
  | nil => cases h
  | cons first rest ih =>
      rw [List.find?_cons] at h
      unfold setBatch
      by_cases hfirst : first.batchId = batchId
      · rw [decide_eq_true hfirst] at h
        rw [if_pos hfirst, ← Option.some.inj h]
        exact ⟨[], rest, rfl, rfl⟩
      · rw [decide_eq_false hfirst] at h
        rw [if_neg hfirst]
        rcases ih h with ⟨before, after, hsplit, hset⟩
        exact ⟨first :: before, after, by rw [hsplit]; rfl, by rw [hset]; rfl⟩

/-- A batch is rewritten that was outstanding, under the same name and kind. -/
theorem Job.Counted.settled {job job' : Job} (h : job.Counted) {batchId : Text} {batch : Batch}
    (hbatch : job.batch batchId = some batch) {f : Batch → Batch}
    (hbatches : job'.batches = setBatch batchId f job.batches) (hjob : job'.jobId = job.jobId)
    (hid : (f batch).batchId = batch.batchId) (hkind : (f batch).kind = batch.kind)
    (hwas : batch.state.outstanding = true) (hprepared : (f batch).state ≠ .prepared)
    (hlimit : ∀ kind, (job'.budgets.ofKind kind).limit = (job.budgets.ofKind kind).limit)
    (hused : ∀ kind, (job'.budgets.ofKind kind).used =
      (job.budgets.ofKind kind).used -
        if kind = batch.kind ∧ (f batch).state = .cancelled then 1 else 0) : job'.Counted := by
  -- One batch changes, so every count is of those before it, of it and of those after it.
  rcases setBatch_split hbatch f with ⟨before, after, hsplit, hset⟩
  have hlive : batch.state ≠ .cancelled := by
    intro heq
    rw [heq] at hwas
    cases hwas
  have hsingle := h.single
  rw [hsplit, List.countP_append, List.countP_cons, if_pos hwas] at hsingle
  refine ⟨?_, ?_, fun kind => ?_, fun kind => ?_, ?_⟩
  · rw [hbatches, hset, List.countP_append, List.countP_cons]
    split <;> omega
  · intro other hother
    rw [hbatches, hset] at hother
    rcases List.mem_append.mp hother with hmem | hmem
    · exact h.unprepared other (hsplit ▸ List.mem_append_left _ hmem)
    · rcases List.mem_cons.mp hmem with rfl | hmem
      · exact hprepared
      · exact h.unprepared other (hsplit ▸ List.mem_append_right _ (List.mem_cons_of_mem _ hmem))
  · have hspent := h.spent kind
    rw [hsplit, List.countP_append, List.countP_cons] at hspent
    rw [hbatches, hset, hused, List.countP_append, List.countP_cons, hkind]
    by_cases hsame : batch.kind = kind
    · simp only [hsame, decide_true, Bool.true_and, hlive, ne_eq, not_false_eq_true, if_true,
        true_and] at hspent ⊢
      -- A cancelled batch gives its budget back; an accepted one keeps it.
      by_cases hcancelled : (f batch).state = .cancelled
      · simp only [hcancelled, not_true_eq_false, decide_false, Bool.false_eq_true, if_false,
          if_true]
        omega
      · simp only [hcancelled, not_false_eq_true, decide_true, if_true, if_false]
        omega
    · have hsame' : ¬ kind = batch.kind := fun heq => hsame heq.symm
      simp only [hsame, hsame', decide_false, Bool.false_and, Bool.false_eq_true, if_false,
        false_and] at hspent ⊢
      omega
  · rw [hused, hlimit]
    exact (Nat.sub_le _ _).trans (h.within kind)
  · have hnamed := h.named
    rw [hsplit] at hnamed
    rw [hbatches, hset, hjob, List.map_append, List.map_cons, hid]
    rw [List.map_append, List.map_cons] at hnamed
    rw [hnamed]
    simp only [List.length_append, List.length_cons]

/-- One batch more, where none is outstanding and there is budget left. -/
theorem Job.Counted.accepted {job job' : Job} (h : job.Counted)
    (hidle : (outstandingBatch job).isSome = false) {batch : Batch}
    (hbatches : job'.batches = job.batches ++ [batch]) (hjob : job'.jobId = job.jobId)
    (hid : batch.batchId = batchName job.jobId (job.batches.length + 1))
    (hstate : batch.state = .accepted)
    (hbudgets : job'.budgets =
      job.budgets.withKind batch.kind ((job.budgets.ofKind batch.kind).spend 1))
    (hroom : (job.budgets.ofKind batch.kind).exhausted = false) : job'.Counted := by
  have hroom : (job.budgets.ofKind batch.kind).used < (job.budgets.ofKind batch.kind).limit := by
    have hle := of_decide_eq_false hroom
    omega
  have hkinds : ∀ kind, job'.budgets.ofKind kind =
      if kind = batch.kind then (job.budgets.ofKind kind).spend 1 else job.budgets.ofKind kind := by
    intro kind
    rw [hbudgets]
    cases kind <;> cases batch.kind <;> rfl
  have hnone := outstandingBatch_isSome.mp hidle
  refine ⟨?_, ?_, fun kind => ?_, fun kind => ?_, ?_⟩
  · rw [hbatches, List.countP_append, hnone, List.countP_singleton]
    split <;> omega
  · intro other hother
    rw [hbatches] at hother
    rcases List.mem_append.mp hother with hmem | hmem
    · exact h.unprepared other hmem
    · rw [List.mem_singleton.mp hmem, hstate]
      exact fun heq => nomatch heq
  · rw [hbatches, hkinds, List.countP_append, h.spent kind, List.countP_singleton, hstate]
    by_cases hkind : kind = batch.kind
    · rw [if_pos hkind, if_pos (by simp [hkind])]
      rfl
    · rw [if_neg hkind, if_neg (by simp [Ne.symm hkind])]
      rfl
  · rw [hkinds]
    by_cases hkind : kind = batch.kind
    · rw [if_pos hkind, hkind]
      exact hroom
    · rw [if_neg hkind]
      exact h.within kind
  · rw [hbatches, hjob, List.map_append, h.named, List.map_singleton, hid, List.length_append,
      List.length_singleton, List.range_succ, List.map_append, List.map_singleton]

/-! ### The store -/

/-- The same head branch: host, head repository whatever its case, and ref. -/
structure Identity.Same (platform : Platform) (a b : Identity) : Prop where
  host : a.host.getD [] = b.host.getD []
  headRepository : platform.toLowerCase (a.headRepository.getD []) =
    platform.toLowerCase (b.headRepository.getD [])
  headRef : a.headRef = b.headRef

theorem Identity.Same.symm {platform : Platform} {a b : Identity} (h : a.Same platform b) :
    b.Same platform a :=
  ⟨h.host.symm, h.headRepository.symm, h.headRef.symm⟩

/-- Every job is counted, and no head branch has two jobs that are maintained. -/
structure Store.Registered (platform : Platform) (store : Store) : Prop where
  keyed : ∀ key job, store.jobs.get key = some job → job.jobId = key
  counted : ∀ key job, store.jobs.get key = some job → job.Counted
  owned : ∀ key job key' job' identity identity', store.jobs.get key = some job →
    store.jobs.get key' = some job' → job.released = false → job'.released = false →
      job.identity = some identity → job'.identity = some identity' →
        identity.Same platform identity' → key = key'

variable {platform : Platform} {choice : Choice} {store next : Store} {job job' : Job}
  {key jobId passId : Text}

theorem registered_empty : Store.Registered platform {} where
  keyed _ _ h := nomatch h
  counted _ _ h := nomatch h
  owned _ _ _ _ _ _ h := nomatch h

theorem Store.Registered.of_jobs (h : store.Registered platform)
    (hjobs : next.jobs = store.jobs) : next.Registered platform := by
  refine ⟨?_, ?_, ?_⟩
  · rw [hjobs]
    exact h.keyed
  · rw [hjobs]
    exact h.counted
  · rw [hjobs]
    exact h.owned

/-- A job is written. Its branch, where it has one and is maintained, must be
    nobody else's. -/
theorem Store.Registered.set (h : store.Registered platform) (hid : job'.jobId = key)
    (hcounted : job'.Counted)
    (hbranch : job'.released = false → ∀ identity, job'.identity = some identity →
      ∀ other held, other ≠ key → store.jobs.get other = some held → held.released = false →
        ∀ identity', held.identity = some identity' → ¬ identity.Same platform identity') :
    Store.Registered platform { store with jobs := store.jobs.set key job' } := by
  refine ⟨fun id found hfound => ?_, fun id found hfound => ?_, ?_⟩
  · rcases Table.get_set_some hfound with ⟨rfl, rfl⟩ | ⟨_, hold⟩
    · exact hid
    · exact h.keyed id found hold
  · rcases Table.get_set_some hfound with ⟨rfl, rfl⟩ | ⟨_, hold⟩
    · exact hcounted
    · exact h.counted id found hold
  · intro id found id' found' identity identity' hfound hfound' hlive hlive' hi hi' hsame
    rcases Table.get_set_some hfound with ⟨rfl, rfl⟩ | ⟨hne, hold⟩
    · rcases Table.get_set_some hfound' with ⟨rfl, rfl⟩ | ⟨hne', hold'⟩
      · rfl
      · exact absurd hsame (hbranch hlive identity hi id' found' hne' hold' hlive' identity' hi')
    · rcases Table.get_set_some hfound' with ⟨rfl, rfl⟩ | ⟨hne', hold'⟩
      · exact absurd hsame.symm (hbranch hlive' identity' hi' id found hne hold hlive identity hi)
      · exact h.owned id found id' found' identity identity' hold hold' hlive hlive' hi hi' hsame

/-- A job is rewritten on the branch it has. -/
theorem Store.Registered.rewrite (h : store.Registered platform)
    (hget : store.jobs.get key = some job) (hid : job'.jobId = job.jobId)
    (hcounted : job'.Counted) (hidentity : job'.identity = job.identity)
    (hreleased : job'.released = false → job.released = false) :
    Store.Registered platform { store with jobs := store.jobs.set key job' } := by
  refine h.set (hid.trans (h.keyed key job hget)) hcounted ?_
  intro hlive identity hi other held hne hheld hheldLive identity' hi' hsame
  rw [hidentity] at hi
  exact hne (h.owned other held key job identity' identity hheld hget hheldLive
    (hreleased hlive) hi' hi hsame.symm)

theorem Store.Registered.kept (h : store.Registered platform)
    (hget : store.jobs.get key = some job) (hkept : job.Kept job') :
    Store.Registered platform { store with jobs := store.jobs.set key job' } :=
  h.rewrite hget hkept.jobId ((h.counted key job hget).kept hkept) hkept.identity hkept.released

/-! ### Commands that change no batch -/

theorem addHold_kept (kind : HoldKind) (reason : Text) (sourceIds : List Text) (job : Job) :
    job.Kept (addHold choice kind reason sourceIds job) := ⟨rfl, rfl, fun _ => rfl, rfl, id⟩

theorem refreshReadiness_kept (job : Job) : job.Kept (refreshReadiness choice job) := by
  unfold refreshReadiness
  split
  · exact ⟨rfl, rfl, fun _ => rfl, rfl, id⟩
  · split <;> exact ⟨rfl, rfl, fun _ => rfl, rfl, id⟩

theorem clearHolds_kept (clear : List Text) (job : Job) :
    job.Kept (clearHolds choice clear job) := by
  unfold clearHolds
  simp only
  split <;> exact ⟨rfl, rfl, fun _ => rfl, rfl, id⟩

theorem applyDecisions_kept (triageId : Text) (decisions : List Decision) (job : Job) :
    job.Kept (decisions.foldl (applyDecision choice triageId) job) := by
  induction decisions generalizing job with
  | nil => exact .refl job
  | cons decision rest ih =>
      refine Job.Kept.trans ?_ (ih _)
      unfold applyDecision
      split <;> exact ⟨rfl, rfl, fun _ => rfl, rfl, id⟩

theorem recordIncomplete_kept (observation : Observation) (job : Job) :
    job.Kept (recordIncomplete choice observation job) := by
  unfold recordIncomplete
  simp only
  split
  · exact ⟨rfl, rfl, fun _ => rfl, rfl, id⟩
  · split
    · exact ⟨rfl, rfl, fun _ => rfl, rfl, id⟩
    · split <;> exact ⟨rfl, rfl, fun _ => rfl, rfl, id⟩

theorem holdUnless_kept {p : Prop} [Decidable p] (kind : HoldKind) (reason : Text)
    (sourceIds : List Text) (job : Job) :
    job.Kept (if p then job else addHold choice kind reason sourceIds job) := by
  by_cases hp : p
  · rw [if_pos hp]
    exact .refl job
  · rw [if_neg hp]
    exact addHold_kept kind reason sourceIds job

theorem holdWhen_kept {p : Prop} [Decidable p] (kind : HoldKind) (reason : Text)
    (sourceIds : List Text) (job : Job) :
    job.Kept (if p then addHold choice kind reason sourceIds job else job) := by
  by_cases hp : p
  · rw [if_pos hp]
    exact addHold_kept kind reason sourceIds job
  · rw [if_neg hp]
    exact .refl job

theorem holdReport_kept (order : WorkOrder) (report : WorkReport)
    (findings : List ReportedFinding) (job : Job) :
    job.Kept (holdReport choice order report findings job) := by
  unfold holdReport
  simp only
  exact (holdUnless_kept _ _ _ _).trans ((holdWhen_kept _ _ _ _).trans
    ((holdUnless_kept _ _ _ _).trans (holdUnless_kept _ _ _ _)))

theorem holdJob_registered {design : Bool} {reason : Text} {sourceIds : List Text}
    (h : store.Registered platform)
    (hnext : holdJob choice jobId design reason sourceIds store = .ok next) :
    next.Registered platform := by
  unfold holdJob at hnext
  rcases bind_ok hnext with ⟨⟨key, job⟩, hjob, hnext⟩
  cases hnext
  rcases getJob_ok hjob with ⟨rfl, hget⟩
  exact h.kept hget (addHold_kept _ _ _ _)

theorem pauseJob_registered {reason : Text} (h : store.Registered platform)
    (hnext : pauseJob jobId reason store = .ok next) : next.Registered platform := by
  unfold pauseJob at hnext
  rcases bind_ok hnext with ⟨⟨key, job⟩, hjob, hnext⟩
  rcases unless_ok hnext with ⟨_, hnext⟩
  cases hnext
  rcases getJob_ok hjob with ⟨rfl, hget⟩
  exact h.kept hget ⟨rfl, rfl, fun _ => rfl, rfl, id⟩

theorem releaseJob_registered (h : store.Registered platform)
    (hnext : releaseJob jobId store = .ok next) : next.Registered platform := by
  unfold releaseJob at hnext
  rcases bind_ok hnext with ⟨⟨key, job⟩, hjob, hnext⟩
  rcases unless_ok hnext with ⟨_, hnext⟩
  cases hnext
  rcases getJob_ok hjob with ⟨rfl, hget⟩
  have hset : Store.Registered platform { store with
      jobs := store.jobs.set key { job with released := true } } :=
    h.kept hget ⟨rfl, rfl, fun _ => rfl, rfl, fun hlive => nomatch hlive⟩
  exact hset.of_jobs rfl

theorem resumeJob_registered {clear : List Text} {confirmHuman : Text}
    (h : store.Registered platform)
    (hnext : resumeJob choice jobId clear confirmHuman store = .ok next) :
    next.Registered platform := by
  rcases resumeJob_ok hnext with ⟨job, hget, rfl⟩
  exact h.kept hget (clearHolds_kept _ _)

theorem triageJob_registered {decisions : List Decision} (h : store.Registered platform)
    (hnext : triageJob choice passId jobId decisions store = .ok next) :
    next.Registered platform := by
  unfold triageJob at hnext
  rcases bind_ok hnext with ⟨⟨key, job⟩, hadmit, hnext⟩
  cases hnext
  rcases admitTriage_ok hadmit with ⟨rfl, hget, _⟩
  exact h.kept hget ((applyDecisions_kept _ _ _).trans (refreshReadiness_kept _))

/-! ### Observations -/

/-- Batches that are prepared are cancelled, and there are none. -/
theorem recordTerminal_kept {lifecycle : Lifecycle} (h : job.Counted) :
    job.Kept (recordTerminal lifecycle job) := by
  refine ⟨rfl, ?_, fun _ => rfl, rfl, id⟩
  refine (List.map_congr_left fun batch hbatch => ?_).trans (List.map_id _)
  exact if_neg (h.unprepared batch hbatch)

theorem recordOwned_spec {passId : Text} {observation : Observation}
    {snapshot : List SnapshotSource} {identity : Identity} (h : job.Counted) :
    (recordOwned choice passId observation snapshot identity job).jobId = job.jobId ∧
      (recordOwned choice passId observation snapshot identity job).Counted ∧
        (recordOwned choice passId observation snapshot identity job).identity = some identity ∧
          ((recordOwned choice passId observation snapshot identity job).released = false →
            job.released = false) := by
  set owned : Job := { job with
    identity := some identity
    lastObservation := some observation
    observedInPass := some passId
    failures := { job.failures with consecutive := 0 } } with howned
  have hcounted : owned.Counted := ⟨h.single, h.unprepared, h.spent, h.within, h.named⟩
  have hkept : owned.Kept (recordOwned choice passId observation snapshot identity job) := by
    unfold recordOwned
    simp only
    split
    · exact recordTerminal_kept hcounted
    · exact recordTerminal_kept hcounted
    · have hobserved : owned.Kept { owned with
          obligations := buildObligations owned observation snapshot [] observation.sources
          nextCheckAt := choice.now + owned.checkInterval } := ⟨rfl, rfl, fun _ => rfl, rfl, id⟩
      exact hobserved.trans (refreshReadiness_kept _)
  exact ⟨hkept.jobId, hcounted.kept hkept, hkept.identity, hkept.released⟩

/-- Who else maintains a head branch is found. -/
theorem ownershipConflict_none {identity : Identity}
    (h : ownershipConflict platform store job identity = none) {other : Text} {held : Job}
    (hheld : store.jobs.get other = some held) (hne : held.jobId ≠ job.jobId)
    (hlive : held.released = false) {identity' : Identity} (hi : held.identity = some identity') :
    ¬ identity.Same platform identity' := by
  intro hsame
  have hno := List.find?_eq_none.mp h held ((store.jobs.mem_values_iff held).mpr ⟨other, hheld⟩)
  refine hno ?_
  simp only [hne, hlive, hi, hsame.host, hsame.headRepository, hsame.headRef, ne_eq,
    not_false_eq_true, decide_true, Bool.not_false, Bool.and_self, Option.any_some]

theorem recordObservation_registered {reserved : Nat} {result : ProviderResult}
    (h : store.Registered platform)
    (hnext : recordObservation platform choice passId jobId reserved result store = .ok next) :
    next.Registered platform := by
  unfold recordObservation at hnext
  rcases bind_ok hnext with ⟨pass, _, hnext⟩
  rcases bind_ok hnext with ⟨⟨key, job⟩, hjob, hnext⟩
  cases hnext
  rcases getJob_ok hjob with ⟨rfl, hget⟩
  set passed : Store := { store with activePass := some { pass with
    requestsRemaining := pass.requestsRemaining +
      (reserved - (result.observation choice).requestsConsumed) } } with hpassed
  have hstore : passed.Registered platform := h.of_jobs rfl
  set tried : Job := { job with lastAttempt := some (result.observation choice) } with htried
  have hkept : job.Kept tried := ⟨rfl, rfl, fun _ => rfl, rfl, id⟩
  have hcounted := (h.counted key job hget).kept hkept
  split
  · unfold recordComplete
    cases hidentity : tried.identity with
    | some identity =>
        -- The branch is pinned already.
        have hspec := @recordOwned_spec choice _ passId (result.observation choice) result.snapshot
          identity hcounted
        exact hstore.rewrite hget hspec.1 hspec.2.1 (hspec.2.2.1.trans hidentity.symm) hspec.2.2.2
    | none =>
        simp only
        split
        · exact hstore.kept hget (hkept.trans ⟨rfl, rfl, fun _ => rfl, hidentity.symm, id⟩)
        · next hconflict =>
            have hspec := @recordOwned_spec choice _ passId (result.observation choice)
              result.snapshot ((result.observation choice).identity.getD
                { host := none, headRepository := none, headRef := none }) hcounted
            have hid := h.keyed key job hget
            refine hstore.set (hspec.1.trans hid) hspec.2.1 ?_
            intro _ identity hi other held hne hheld hlive identity' hi'
            rw [hspec.2.2.1, Option.some.injEq] at hi
            rw [← hi]
            refine ownershipConflict_none hconflict hheld ?_ hlive hi'
            change held.jobId ≠ job.jobId
            rw [h.keyed other held hheld, hid]
            exact hne
  · exact hstore.kept hget (hkept.trans (recordIncomplete_kept _ _))

/-! ### Batches -/

theorem batch_id {batchId : Text} {batch : Batch} (h : job.batch batchId = some batch) :
    batch.batchId = batchId := of_decide_eq_true (List.find?_some h :)

theorem reportedState_settled (effects : List ReportedEffect) (findings : List ReportedFinding) :
    reportedState effects findings ≠ .prepared ∧ reportedState effects findings ≠ .cancelled := by
  unfold reportedState
  split
  · exact ⟨(nomatch ·), (nomatch ·)⟩
  · split
    · exact ⟨(nomatch ·), (nomatch ·)⟩
    · split <;> exact ⟨(nomatch ·), (nomatch ·)⟩

/-- A report spends mutations, raises holds and ends its batch. -/
theorem applyReport_spec {batchId : Text} {batch : Batch} {report : WorkReport}
    (h : job.Counted) (hbatch : job.batch batchId = some batch)
    (hwas : batch.state.outstanding = true) :
    (applyReport platform choice batch report job).jobId = job.jobId ∧
      (applyReport platform choice batch report job).Counted ∧
        (applyReport platform choice batch report job).identity = job.identity ∧
          ((applyReport platform choice batch report job).released = false →
            job.released = false) := by
  set findings := report.findings ++ unreported batch.workOrder report.findings with hfindings
  set spent : Job := { job with
    effects := ((job.effects.filter fun effect => effect.batchId ≠ batch.batchId) ++
      recordEffects platform choice batch.batchId report.effects).rtake effectsKept
    budgets := { job.budgets with
      mutationAttempts := job.budgets.mutationAttempts.spend report.mutationAttempts } } with hspent
  have hkept : job.Kept (holdReport choice batch.workOrder report findings spent) := by
    have hfirst : job.Kept spent := ⟨rfl, rfl, fun kind => by cases kind <;> rfl, rfl, id⟩
    exact hfirst.trans (holdReport_kept _ _ _ _)
  have hstate := reportedState_settled report.effects findings
  refine ⟨hkept.jobId, ?_, hkept.identity, hkept.released⟩
  have hbatches : (applyReport platform choice batch report job).batches =
      setBatch batchId (fun batch => { batch with
        state := reportedState report.effects findings
        report := some { report with findings }
        settledAt := if reportedState report.effects findings = .uncertain then batch.settledAt
          else some choice.now }) job.batches := by
    rw [← batch_id hbatch, ← hkept.batches]
    rfl
  refine h.settled hbatch hbatches hkept.jobId rfl rfl hwas hstate.1 (fun kind => ?_)
    fun kind => ?_
  · exact congrArg Counter.limit (hkept.kinds kind)
  · rw [if_neg fun hcancelled => hstate.2 hcancelled.2, Nat.sub_zero]
    exact congrArg Counter.used (hkept.kinds kind)

theorem reportBatch_registered {batchId : Text} {report : WorkReport}
    (h : store.Registered platform)
    (hnext : reportBatch platform choice batchId report store = .ok next) :
    next.Registered platform := by
  rcases reportBatch_ok hnext with ⟨key, job, batch, hget, hbatch, hwas, rfl⟩
  have hspec := @applyReport_spec platform choice _ _ _ report (h.counted key job hget) hbatch hwas
  exact h.rewrite hget hspec.1 hspec.2.1 hspec.2.2.1 hspec.2.2.2

theorem withKind_ofKind (budgets : Budgets) (kind kind' : BatchKind) (counter : Counter) :
    (budgets.withKind kind counter).ofKind kind' =
      if kind' = kind then counter else budgets.ofKind kind' := by
  cases kind <;> cases kind' <;> rfl

/-- What a cancelled batch was charged is given back. -/
theorem cancelBatch_registered {batchId : Text} (h : store.Registered platform)
    (hnext : cancelBatch choice batchId store = .ok next) : next.Registered platform := by
  rcases cancelBatch_ok hnext with ⟨key, job, batch, hget, hbatch, hwas, rfl⟩
  refine h.rewrite hget rfl ?_ rfl id
  refine (h.counted key job hget).settled hbatch rfl rfl rfl rfl hwas
    (fun heq => nomatch heq) (fun kind => ?_) fun kind => ?_
  · rw [withKind_ofKind]
    by_cases hkind : kind = batch.kind
    · rw [if_pos hkind, hkind]
      rfl
    · rw [if_neg hkind]
  · rw [withKind_ofKind]
    by_cases hkind : kind = batch.kind
    · rw [if_pos hkind, if_pos ⟨hkind, rfl⟩, hkind]
      rfl
    · rw [if_neg hkind, if_neg fun hboth => hkind hboth.1]
      rfl

theorem acceptBatch_spec {input : PlanInput} {findings : List OrderedFinding}
    {headSha baseSha : Text} (h : job.Counted) (hidle : (outstandingBatch job).isSome = false) :
    (acceptBatch choice input findings headSha baseSha job).jobId = job.jobId ∧
      (acceptBatch choice input findings headSha baseSha job).Counted ∧
        (acceptBatch choice input findings headSha baseSha job).identity = job.identity ∧
          ((acceptBatch choice input findings headSha baseSha job).released = false →
            job.released = false) := by
  unfold acceptBatch
  simp only
  split
  · exact ⟨rfl, h.kept (addHold_kept _ _ _ _), rfl, id⟩
  split
  · exact ⟨rfl, h.kept (addHold_kept _ _ _ _), rfl, id⟩
  next hroom =>
  split
  · exact ⟨rfl, h.kept (addHold_kept _ _ _ _), rfl, id⟩
  · exact ⟨rfl, h.accepted hidle rfl rfl rfl rfl rfl (Bool.eq_false_iff.mpr hroom), rfl, id⟩

theorem planBatch_registered {input : PlanInput} (h : store.Registered platform)
    (hnext : planBatch choice passId jobId input store = .ok next) :
    next.Registered platform := by
  rcases planBatch_ok hnext with ⟨job, findings, headSha, baseSha, hget, hidle, rfl⟩
  have hspec := @acceptBatch_spec choice _ input findings headSha baseSha
    (h.counted jobId job hget) hidle
  exact h.rewrite hget hspec.1 hspec.2.1 hspec.2.2.1 hspec.2.2.2

theorem addJob_registered {args : AddArgs} (h : store.Registered platform)
    (hnext : addJob platform choice args store = .ok next) : next.Registered platform := by
  unfold addJob at hnext
  split at hnext
  · cases hnext
  · split at hnext
    · cases hnext
    split at hnext
    · cases hnext
    split at hnext
    · cases hnext
    split at hnext
    · cases hnext
    · cases hnext
      refine h.set rfl ?_ fun _ identity hi => nomatch hi
      refine ⟨Nat.zero_le 1, fun batch hbatch => (nomatch hbatch), fun kind => ?_, fun kind => ?_,
        rfl⟩
      · cases kind <;> rfl
      · cases kind <;> exact Nat.zero_le _

theorem mutate_registered {command : Command} (h : store.Registered platform)
    (hnext : mutate platform choice command store = .ok next) : next.Registered platform := by
  cases command with
  | addJob args => exact addJob_registered h hnext
  | beginPass => exact h.of_jobs (beginPass_jobs hnext)
  | reserveVisit passId jobId requests => exact h.of_jobs (reserveVisit_jobs hnext)
  | recordObservation passId jobId reserved result => exact recordObservation_registered h hnext
  | triageJob passId jobId decisions => exact triageJob_registered h hnext
  | planBatch passId jobId input => exact planBatch_registered h hnext
  | reportBatch batchId report => exact reportBatch_registered h hnext
  | cancelBatch batchId => exact cancelBatch_registered h hnext
  | holdJob jobId design reason sourceIds => exact holdJob_registered h hnext
  | pauseJob jobId reason => exact pauseJob_registered h hnext
  | resumeJob jobId clear confirmHuman => exact resumeJob_registered h hnext
  | releaseJob jobId => exact releaseJob_registered h hnext
  | endPass passId => exact h.of_jobs (endPass_jobs hnext)
  | recoverPass passId confirmStopped => exact h.of_jobs (recoverPass_jobs hnext)

/-- The names of the batches of all jobs. -/
def Store.batchIds (store : Store) : List Text :=
  store.jobs.values.flatMap fun job => job.batches.map (·.batchId)

theorem Job.Counted.mem_batchIds (h : job.Counted) {batchId : Text}
    (hmem : batchId ∈ job.batches.map (·.batchId)) : ∃ n, batchId = batchName job.jobId n := by
  rw [h.named] at hmem
  rcases List.mem_map.mp hmem with ⟨i, _, heq⟩
  exact ⟨i + 1, heq.symm⟩

theorem Job.Counted.nodup (h : job.Counted) : (job.batches.map (·.batchId)).Nodup := by
  rw [h.named]
  refine List.Nodup.map (fun i j heq => ?_) List.nodup_range
  exact Nat.succ_inj.mp (batchName_inj heq).2

theorem Store.Registered.nodup (h : store.Registered platform) : store.batchIds.Nodup := by
  unfold Store.batchIds Table.values
  rw [List.nodup_flatMap, List.pairwise_map]
  constructor
  · intro job hjob
    rcases (store.jobs.mem_values_iff job).mp hjob with ⟨key, hget⟩
    exact (h.counted key job hget).nodup
  · have hkeys : store.jobs.entries.Pairwise fun a b => a.1 ≠ b.1 :=
      List.pairwise_map.mp store.jobs.nodup
    refine hkeys.imp_of_mem ?_
    intro a b ha hb hne batchId hbatch hbatch'
    -- A name both have would be that of one job.
    have hgeta := (store.jobs.mem_entries_iff a.1 a.2).mp ha
    have hgetb := (store.jobs.mem_entries_iff b.1 b.2).mp hb
    rcases (h.counted _ _ hgeta).mem_batchIds hbatch with ⟨m, hm⟩
    rcases (h.counted _ _ hgetb).mem_batchIds hbatch' with ⟨n, hn⟩
    have hid := (batchName_inj (hm.symm.trans hn)).1
    rw [h.keyed _ _ hgeta, h.keyed _ _ hgetb] at hid
    exact hne hid

/-! ### The account of a pass -/

/-- What a pass has handed out, and what it was given back. -/
structure Account where
  visits : Nat := 0
  reserved : Nat := 0
  refunded : Nat := 0

/-- The requests a visit is granted. -/
def reservation (store : Store) (jobId : Text) (requests : Option Nat) : Nat :=
  match store.activePass, store.jobs.get jobId with
  | some pass, some job =>
      min pass.requestsRemaining
        (min (requests.getD job.provider.defaultRequests) PassLimits.requests)
  | _, _ => 0

/-- The account after a command that was carried out. -/
def Account.enter (choice : Choice) (store : Store) (account : Account) : Command → Account
  | .beginPass => {}
  | .reserveVisit _ jobId requests =>
      { account with
        visits := account.visits + 1
        reserved := account.reserved + reservation store jobId requests }
  | .recordObservation _ _ reserved result =>
      { account with
        refunded := account.refunded + (reserved - (result.observation choice).requestsConsumed) }
  | _ => account

/-- The store, with the account of its latest pass. -/
structure Ledger where
  store : Store := {}
  account : Account := {}

def enter (platform : Platform) (ledger : Ledger) (command : Command × Choice) : Ledger where
  store := transact platform ledger.store command
  account :=
    match mutate platform command.2 command.1 ledger.store with
    | .ok _ =>
        if command.2.saved then ledger.account.enter command.2 ledger.store command.1
        else ledger.account
    | .error _ => ledger.account

/-- What is left of the running pass agrees with the account. -/
structure Accounted (store : Store) (account : Account) : Prop where
  visits : account.visits ≤ PassLimits.visits
  requests : account.reserved ≤ PassLimits.requests + account.refunded
  left : ∀ pass, store.activePass = some pass →
    pass.visitsRemaining + account.visits = PassLimits.visits ∧
      pass.requestsRemaining + account.reserved = PassLimits.requests + account.refunded

variable {account : Account}

theorem Accounted.of_pass (h : Accounted store account)
    (hpass : next.activePass = store.activePass) : Accounted next account :=
  ⟨h.visits, h.requests, hpass ▸ h.left⟩

theorem Accounted.of_none (h : Accounted store account) (hpass : next.activePass = none) :
    Accounted next account :=
  ⟨h.visits, h.requests, fun _ hactive => nomatch hpass.symm.trans hactive⟩

/-- The running pass is the one it was. -/
theorem requirePass_ok {passId : Text} {admits : Bool} {pass : Pass}
    (h : requirePass choice store passId admits = .ok pass) : store.activePass = some pass := by
  unfold requirePass at h
  split at h
  · cases h
  · next active hactive =>
    split at h
    · cases h
    · split at h
      · cases h
      · cases h
        exact hactive

theorem reserveVisit_accounted {requests : Option Nat} (h : Accounted store account)
    (hnext : reserveVisit choice passId jobId requests store = .ok next) :
    Accounted next (account.enter choice store (.reserveVisit passId jobId requests)) := by
  unfold reserveVisit at hnext
  rcases bind_ok hnext with ⟨pass, hpass, hnext⟩
  rcases bind_ok hnext with ⟨⟨key, job⟩, hjob, hnext⟩
  rcases unless_ok hnext with ⟨_, hnext⟩
  rcases unless_ok hnext with ⟨hvisits, hnext⟩
  rcases unless_ok hnext with ⟨hrequests, hnext⟩
  cases hnext
  rcases getJob_ok hjob with ⟨rfl, hget⟩
  have hactive := requirePass_ok hpass
  have hgranted : reservation store key requests = min pass.requestsRemaining
      (min (requests.getD job.provider.defaultRequests) PassLimits.requests) := by
    unfold reservation
    rw [hactive, hget]
  rcases h.left pass hactive with ⟨hleft, hrest⟩
  have hmin : reservation store key requests ≤ pass.requestsRemaining :=
    hgranted ▸ Nat.min_le_left _ _
  have hvisited : (account.enter choice store (.reserveVisit passId key requests)).visits =
      account.visits + 1 := rfl
  have hreserved : (account.enter choice store (.reserveVisit passId key requests)).reserved =
      account.reserved + reservation store key requests := rfl
  have hrefunded : (account.enter choice store (.reserveVisit passId key requests)).refunded =
      account.refunded := rfl
  refine ⟨?_, ?_, ?_⟩
  · omega
  · omega
  · intro pass' hactive'
    cases hactive'
    simp only [← hgranted]
    omega

theorem recordObservation_accounted {reserved : Nat} {result : ProviderResult}
    (h : Accounted store account)
    (hnext : recordObservation platform choice passId jobId reserved result store = .ok next) :
    Accounted next
      (account.enter choice store (.recordObservation passId jobId reserved result)) := by
  unfold recordObservation at hnext
  rcases bind_ok hnext with ⟨pass, hpass, hnext⟩
  rcases bind_ok hnext with ⟨⟨key, job⟩, _, hnext⟩
  cases hnext
  rcases h.left pass (requirePass_ok hpass) with ⟨hleft, hrest⟩
  have hrequests := h.requests
  refine ⟨h.visits, ?_, ?_⟩
  · change account.reserved ≤ PassLimits.requests + (account.refunded + _)
    omega
  · intro pass' hactive'
    cases hactive'
    refine ⟨hleft, ?_⟩
    change pass.requestsRemaining + _ + account.reserved =
      PassLimits.requests + (account.refunded + _)
    omega

theorem beginPass_accounted (hnext : beginPass platform choice store = .ok next) :
    Accounted next {} := by
  unfold beginPass at hnext
  split at hnext
  · cases hnext
  · cases hnext
    refine ⟨Nat.zero_le _, Nat.zero_le _, fun pass hactive => ?_⟩
    cases hactive
    exact ⟨rfl, rfl⟩

theorem endPass_none (hnext : endPass choice passId store = .ok next) :
    next.activePass = none := by
  unfold endPass at hnext
  rcases bind_ok hnext with ⟨pass, _, hnext⟩
  cases hnext
  rfl

theorem recoverPass_none {confirmStopped : Text}
    (hnext : recoverPass passId confirmStopped store = .ok next) : next.activePass = none := by
  unfold recoverPass at hnext
  split at hnext
  · cases hnext
  split at hnext
  · cases hnext
  split at hnext
  · cases hnext
  · cases hnext
    rfl

/-- The running pass and what is carried over are as they were. -/
def SamePass (store next : Store) : Prop :=
  next.activePass = store.activePass ∧ next.carried = store.carried

theorem addJob_pass {args : AddArgs} (hnext : addJob platform choice args store = .ok next) :
    SamePass store next := by
  unfold addJob at hnext
  split at hnext
  · cases hnext
  · split at hnext
    · cases hnext
    split at hnext
    · cases hnext
    split at hnext
    · cases hnext
    split at hnext
    · cases hnext
    · cases hnext
      exact ⟨rfl, rfl⟩

theorem triageJob_pass {decisions : List Decision}
    (hnext : triageJob choice passId jobId decisions store = .ok next) :
    SamePass store next := by
  unfold triageJob at hnext
  rcases bind_ok hnext with ⟨⟨key, job⟩, _, hnext⟩
  cases hnext
  exact ⟨rfl, rfl⟩

theorem planBatch_pass {input : PlanInput}
    (hnext : planBatch choice passId jobId input store = .ok next) :
    SamePass store next := by
  rcases planBatch_ok hnext with ⟨_, _, _, _, _, _, rfl⟩
  exact ⟨rfl, rfl⟩

theorem reportBatch_pass {batchId : Text} {report : WorkReport}
    (hnext : reportBatch platform choice batchId report store = .ok next) :
    SamePass store next := by
  rcases reportBatch_ok hnext with ⟨_, _, _, _, _, _, rfl⟩
  exact ⟨rfl, rfl⟩

theorem cancelBatch_pass {batchId : Text} (hnext : cancelBatch choice batchId store = .ok next) :
    SamePass store next := by
  rcases cancelBatch_ok hnext with ⟨_, _, _, _, _, _, rfl⟩
  exact ⟨rfl, rfl⟩

theorem holdJob_pass {design : Bool} {reason : Text} {sourceIds : List Text}
    (hnext : holdJob choice jobId design reason sourceIds store = .ok next) :
    SamePass store next := by
  unfold holdJob at hnext
  rcases bind_ok hnext with ⟨⟨key, job⟩, _, hnext⟩
  cases hnext
  exact ⟨rfl, rfl⟩

theorem pauseJob_pass {reason : Text} (hnext : pauseJob jobId reason store = .ok next) :
    SamePass store next := by
  unfold pauseJob at hnext
  rcases bind_ok hnext with ⟨⟨key, job⟩, _, hnext⟩
  rcases unless_ok hnext with ⟨_, hnext⟩
  cases hnext
  exact ⟨rfl, rfl⟩

theorem resumeJob_pass {clear : List Text} {confirmHuman : Text}
    (hnext : resumeJob choice jobId clear confirmHuman store = .ok next) :
    SamePass store next := by
  rcases resumeJob_ok hnext with ⟨_, _, rfl⟩
  exact ⟨rfl, rfl⟩

theorem releaseJob_pass (hnext : releaseJob jobId store = .ok next) :
    next.activePass = store.activePass := by
  unfold releaseJob at hnext
  rcases bind_ok hnext with ⟨⟨key, job⟩, _, hnext⟩
  rcases unless_ok hnext with ⟨_, hnext⟩
  cases hnext
  rfl

theorem mutate_accounted {command : Command} (h : Accounted store account)
    (hnext : mutate platform choice command store = .ok next) :
    Accounted next (account.enter choice store command) := by
  cases command with
  | addJob args => exact h.of_pass (addJob_pass hnext).1
  | beginPass => exact beginPass_accounted hnext
  | reserveVisit passId jobId requests => exact reserveVisit_accounted h hnext
  | recordObservation passId jobId reserved result => exact recordObservation_accounted h hnext
  | triageJob passId jobId decisions => exact h.of_pass (triageJob_pass hnext).1
  | planBatch passId jobId input => exact h.of_pass (planBatch_pass hnext).1
  | reportBatch batchId report => exact h.of_pass (reportBatch_pass hnext).1
  | cancelBatch batchId => exact h.of_pass (cancelBatch_pass hnext).1
  | holdJob jobId design reason sourceIds => exact h.of_pass (holdJob_pass hnext).1
  | pauseJob jobId reason => exact h.of_pass (pauseJob_pass hnext).1
  | resumeJob jobId clear confirmHuman => exact h.of_pass (resumeJob_pass hnext).1
  | releaseJob jobId => exact h.of_pass (releaseJob_pass hnext)
  | endPass passId => exact h.of_none (endPass_none hnext)
  | recoverPass passId confirmStopped => exact h.of_none (recoverPass_none hnext)

/-! ### Runs -/

theorem enter_store (platform : Platform) (ledger : Ledger) (command : Command × Choice) :
    (enter platform ledger command).store = transact platform ledger.store command := rfl

theorem transact_registered (command : Command × Choice) (h : store.Registered platform) :
    (transact platform store command).Registered platform := by
  unfold transact
  cases hnext : mutate platform command.2 command.1 store with
  | error code => exact h
  | ok next =>
      by_cases hsaved : command.2.saved = true
      · simp only [hsaved, if_true]
        exact mutate_registered h hnext
      · simp only [hsaved]
        exact h

theorem enter_registered {ledger : Ledger} (command : Command × Choice)
    (h : ledger.store.Registered platform) :
    (enter platform ledger command).store.Registered platform := by
  rw [enter_store]
  exact transact_registered command h

theorem enter_accounted {ledger : Ledger} (command : Command × Choice)
    (h : Accounted ledger.store ledger.account) :
    Accounted (enter platform ledger command).store (enter platform ledger command).account := by
  unfold enter transact
  cases hnext : mutate platform command.2 command.1 ledger.store with
  | error code => exact h
  | ok next =>
      by_cases hsaved : command.2.saved = true
      · simp only [hsaved, if_true]
        exact mutate_accounted h hnext
      · simp only [hsaved]
        exact h

theorem accounted_empty : Accounted {} {} :=
  ⟨Nat.zero_le _, Nat.zero_le _, fun _ hactive => nomatch hactive⟩

/-- Whatever commands a store was given, in any order: a job has one batch
    outstanding at most; its budgets say how many batches it planned and did
    not cancel, and are not passed; no two maintained jobs are pinned to the
    same head branch; no two batches have the same id; and a pass hands out no
    more visits than it has, and no more requests than it has and is given
    back. -/
theorem registry_kept (platform : Platform) (commands : List (Command × Choice)) :
    let ledger := Run.final (enter platform) {} commands
    (∀ job ∈ ledger.store.jobs.values,
      job.batches.countP (fun batch => batch.state.outstanding) ≤ 1 ∧
        ∀ kind, job.batches.countP (fun batch =>
            batch.kind = kind && batch.state ≠ .cancelled) = (job.budgets.ofKind kind).used ∧
          (job.budgets.ofKind kind).used ≤ (job.budgets.ofKind kind).limit) ∧
      (∀ key job key' job' identity identity', ledger.store.jobs.get key = some job →
        ledger.store.jobs.get key' = some job' → job.released = false → job'.released = false →
          job.identity = some identity → job'.identity = some identity' →
            identity.Same platform identity' → key = key') ∧
        ledger.store.batchIds.Nodup ∧ ledger.account.visits ≤ PassLimits.visits ∧
          ledger.account.reserved ≤ PassLimits.requests + ledger.account.refunded := by
  intro ledger
  have hregistered : ledger.store.Registered platform :=
    Run.invariant (enter platform) (fun ledger => ledger.store.Registered platform)
      (fun _ command h => enter_registered command h) commands {} registered_empty
  have haccounted : Accounted ledger.store ledger.account :=
    Run.invariant (enter platform) (fun ledger => Accounted ledger.store ledger.account)
      (fun _ command h => enter_accounted command h) commands {} accounted_empty
  refine ⟨fun job hjob => ?_, hregistered.owned, hregistered.nodup, haccounted.visits,
    haccounted.requests⟩
  rcases (ledger.store.jobs.mem_values_iff job).mp hjob with ⟨key, hget⟩
  have hcounted := hregistered.counted key job hget
  exact ⟨hcounted.single, fun kind => ⟨hcounted.spent kind, hcounted.within kind⟩⟩

end PrmSkill

end CopilotFleet
