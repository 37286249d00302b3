import CopilotFleet.PrmSkill.Registry
import CopilotFleet.Protocol.PullRequestUrl
import CopilotFleet.Lib.Split

/-!
# The Ids of Jobs

A job is named by the URL of its pull request. The markers in the path and all
punctuation of the URL become dashes, case is folded, and the text is cut; a
pull request that was maintained before gets the number of its registration
behind. Registering writes the job under that name, without a look at who has
it: two pull requests whose URLs differ only in where a dash stands are given
one name, and the later one takes the place of the earlier.

`Unlike` is what keeps them apart. A URL is spelled by its words, the runs of
letters and digits in it, up to 120 units; no other pull request may be spelled
the same, or be spelled as this one is with the number of a registration behind,
which takes a URL that is cut in the middle. Registrations of one pull request
never meet, because a number is one more than there are jobs of its URL, and
nothing ever removes a job.

## Main definitions

* `slugFor`: The name a URL is turned into.
* `jobIdFor`: The name of a registration, by its URL and number.
* `sourcePlatform`: The platform with the source's own URLs and names.
* `spelling`: The words of a URL, as far as they count.
* `Unlike`: No other pull request is spelled like a URL.
* `Adds`: A registration that touches no other job.

## Theorems

* `mutate_writes`: What a command does to the ids and URLs of jobs.
* `slugFor_eq`: A slug is the spelling of the URL.
* `adds_iff`: A registration touches no other job exactly where its URL is unlike others.
* `registrations_apart`: In a run over unlike URLs, ids stay with their URL.
-/

namespace CopilotFleet

namespace PrmSkill

open Utf16 Split PullRequestUrl

/-! ### Slugs -/

/-- The text with `-` for the first place one of the markers stands at, the earlier marker
    first; units are compared after `fold`. -/
def replaceFirst (fold : UInt16 → UInt16) (markers : List Text) : Text → Text
  | [] => []
  | u :: rest =>
      match markers.find? fun marker => marker.isPrefixOf ((u :: rest).map fold) with
      | some marker => 0x2D :: (u :: rest).drop marker.length
      | none => u :: replaceFirst fold markers rest

/-- A URL without its scheme and the markers of a pull request. -/
def unmarked (url : Text) : Text :=
  let scheme := ofString "https://"
  let bare := if scheme.isPrefixOf url then url.drop scheme.length else url
  let unpulled := replaceFirst lowerUnit [ofString "/pull/", ofString "/pullrequest/"] bare
  replaceFirst id [ofString "/_git/"] unpulled

def slugFor (url : Text) : Text :=
  let dashed := [0x2D].intercalate (pieces (fun u => !isAlphanumeric u) (unmarked url))
  (lower (trim (fun u => u = 0x2D) dashed)).take 120

/-- The name of the `generation`-th registration under a slug. -/
def numbered (slug : Text) (generation : Nat) : Text :=
  slug ++ (ofString "-g" ++ decimal generation)

def jobIdFor (url : Text) (generation : Nat) : Text :=
  if generation = 1 then slugFor url else numbered (slugFor url) generation

def providerOf : PrMaintenanceUrl → Provider
  | .github .. => .github
  | .azureDevops .. => .azureDevops

/-- `parsePrUrl`, as the command line hands it to the engine. -/
def parsePrUrl (runtime : UrlRuntime) (url : Text) : Option (Provider × Text) :=
  (parsePrMaintenanceUrl runtime url).map fun parsed => (providerOf parsed, parsed.url)

/-- The platform with the source's own URLs and names. -/
def sourcePlatform (runtime : UrlRuntime) (platform : Platform) : Platform :=
  { platform with
    parseUrl := parsePrUrl runtime
    slugFor := slugFor
    numbered := numbered }

/-- The runs of letters and digits of a URL, without regard to case. -/
def words (url : Text) : List Text :=
  ((pieces (fun u => !isAlphanumeric u) (unmarked url)).filter fun w => !w.isEmpty).map lower

/-- What tells a URL from others: its words one after the other, up to 120 units. -/
def spelling (url : Text) : Text := ([0x2D].intercalate (words url)).take 120

theorem lower_intercalate (ws : List Text) :
    lower ([0x2D].intercalate ws) = [0x2D].intercalate (ws.map lower) := by
  unfold lower
  induction ws with
  | nil => rfl
  | cons w rest ih =>
      cases rest with
      | nil => simp
      | cons w' rest =>
          rw [List.map_cons] at ih ⊢
          rw [List.map_cons, List.intercalate_cons_cons, List.intercalate_cons_cons,
            List.map_append, List.map_append, ih]
          rfl

/-- A slug is how the URL is spelled. -/
theorem slugFor_eq (url : Text) : slugFor url = spelling url := by
  unfold slugFor spelling words
  simp only
  rw [trim_joined (by decide), lower_intercalate]

/-- One slug gives a name only once. -/
theorem jobIdFor_inj {url : Text} {m n : Nat} (h : jobIdFor url m = jobIdFor url n) : m = n := by
  have hlonger : ∀ {slug : Text} {n : Nat}, slug ≠ numbered slug n := by
    intro slug n heq
    have hlength := congrArg List.length heq
    have hmark : (ofString "-g").length = 2 := by decide
    simp only [numbered, List.length_append, hmark] at hlength
    omega
  unfold jobIdFor at h
  by_cases hm : m = 1
  · by_cases hn : n = 1
    · rw [hm, hn]
    · rw [if_pos hm, if_neg hn] at h
      exact absurd h hlonger
  · by_cases hn : n = 1
    · rw [if_neg hm, if_pos hn] at h
      exact absurd h.symm hlonger
    · rw [if_neg hm, if_neg hn] at h
      exact decimal_inj (List.append_cancel_left (List.append_cancel_left h))

/-! ### What commands do to the names of jobs -/

/-- What a job was registered as. -/
def Job.entry (job : Job) : Text × Text × Nat := (job.jobId, job.url, job.generation)

variable {platform : Platform} {choice : Choice} {store next : Store} {job : Job}
  {key jobId passId : Text}

@[simp] theorem addHold_entry (kind : HoldKind) (reason : Text) (sourceIds : List Text)
    (job : Job) : (addHold choice kind reason sourceIds job).entry = job.entry := rfl

theorem refreshReadiness_entry (job : Job) : (refreshReadiness choice job).entry = job.entry := by
  unfold refreshReadiness
  split
  · rfl
  · split <;> rfl

theorem clearHolds_entry (clear : List Text) (job : Job) :
    (clearHolds choice clear job).entry = job.entry := by
  unfold clearHolds
  simp only
  split <;> rfl

theorem applyDecisions_entry (triageId : Text) (decisions : List Decision) (job : Job) :
    (decisions.foldl (applyDecision choice triageId) job).entry = job.entry := by
  induction decisions generalizing job with
  | nil => rfl
  | cons decision rest ih =>
      refine (ih _).trans ?_
      unfold applyDecision
      split <;> rfl

theorem recordIncomplete_entry (observation : Observation) (job : Job) :
    (recordIncomplete choice observation job).entry = job.entry := by
  unfold recordIncomplete
  simp only
  split
  · rfl
  · split
    · rfl
    · split <;> rfl

theorem recordOwned_entry (observation : Observation) (snapshot : List SnapshotSource)
    (identity : Identity) (job : Job) :
    (recordOwned choice passId observation snapshot identity job).entry = job.entry := by
  unfold recordOwned
  simp only
  split
  · rfl
  · rfl
  · exact refreshReadiness_entry _

theorem recordComplete_entry (observation : Observation) (snapshot : List SnapshotSource)
    (job : Job) :
    (recordComplete platform choice store passId observation snapshot job).entry = job.entry := by
  unfold recordComplete
  split
  · exact recordOwned_entry _ _ _ _
  · simp only
    split
    · rfl
    · exact recordOwned_entry _ _ _ _

theorem acceptBatch_entry (input : PlanInput) (findings : List OrderedFinding)
    (headSha baseSha : Text) (job : Job) :
    (acceptBatch choice input findings headSha baseSha job).entry = job.entry := by
  unfold acceptBatch
  simp only
  split
  · rfl
  · split
    · rfl
    · split <;> rfl

theorem holdUnless_entry {p : Prop} [Decidable p] (kind : HoldKind) (reason : Text)
    (sourceIds : List Text) (job : Job) :
    (if p then job else addHold choice kind reason sourceIds job).entry = job.entry := by
  by_cases hp : p
  · rw [if_pos hp]
  · rw [if_neg hp, addHold_entry]

theorem holdWhen_entry {p : Prop} [Decidable p] (kind : HoldKind) (reason : Text)
    (sourceIds : List Text) (job : Job) :
    (if p then addHold choice kind reason sourceIds job else job).entry = job.entry := by
  by_cases hp : p
  · rw [if_pos hp, addHold_entry]
  · rw [if_neg hp]

theorem applyReport_entry (batch : Batch) (report : WorkReport) (job : Job) :
    (applyReport platform choice batch report job).entry = job.entry := by
  have hheld : ∀ order findings (job : Job),
      (holdReport choice order report findings job).entry = job.entry := by
    intro order findings job
    unfold holdReport
    simp only
    exact (holdUnless_entry _ _ _ _).trans ((holdUnless_entry _ _ _ _).trans
      ((holdWhen_entry _ _ _ _).trans (holdUnless_entry _ _ _ _)))
  exact hheld _ _ _

/-- A command leaves the jobs alone, or rewrites one under the name and URL it has. -/
def Writes (store next : Store) : Prop :=
  next.jobs = store.jobs ∨
    ∃ key job job', store.jobs.get key = some job ∧ next.jobs = store.jobs.set key job' ∧
      job'.entry = job.entry

theorem recordObservation_writes {reserved : Nat} {result : ProviderResult}
    (hnext : recordObservation platform choice passId jobId reserved result store = .ok next) :
    Writes store next := by
  unfold recordObservation at hnext
  rcases bind_ok hnext with ⟨pass, _, hnext⟩
  rcases bind_ok hnext with ⟨⟨key, job⟩, hjob, hnext⟩
  cases hnext
  rcases getJob_ok hjob with ⟨rfl, hget⟩
  refine Or.inr ⟨key, job, _, hget, rfl, ?_⟩
  split
  · exact recordComplete_entry _ _ _
  · exact recordIncomplete_entry _ _

theorem planBatch_writes {input : PlanInput}
    (hnext : planBatch choice passId jobId input store = .ok next) : Writes store next := by
  rcases planBatch_ok hnext with ⟨job, findings, headSha, baseSha, hget, _, rfl⟩
  exact Or.inr ⟨jobId, job, _, hget, rfl, acceptBatch_entry _ _ _ _ _⟩

theorem reportBatch_writes {batchId : Text} {report : WorkReport}
    (hnext : reportBatch platform choice batchId report store = .ok next) :
    Writes store next := by
  rcases reportBatch_ok hnext with ⟨key, job, _, hget, _, _, rfl⟩
  exact Or.inr ⟨key, job, _, hget, rfl, applyReport_entry _ _ _⟩

theorem cancelBatch_writes {batchId : Text}
    (hnext : cancelBatch choice batchId store = .ok next) : Writes store next := by
  rcases cancelBatch_ok hnext with ⟨key, job, _, hget, _, _, rfl⟩
  exact Or.inr ⟨key, job, _, hget, rfl, rfl⟩

theorem triageJob_writes {decisions : List Decision}
    (hnext : triageJob choice passId jobId decisions store = .ok next) : Writes store next := by
  unfold triageJob at hnext
  rcases bind_ok hnext with ⟨⟨key, job⟩, hadmit, hnext⟩
  cases hnext
  rcases admitTriage_ok hadmit with ⟨rfl, hget, _⟩
  exact Or.inr ⟨key, job, _, hget, rfl,
    (refreshReadiness_entry _).trans (applyDecisions_entry _ _ _)⟩

theorem holdJob_writes {design : Bool} {reason : Text} {sourceIds : List Text}
    (hnext : holdJob choice jobId design reason sourceIds store = .ok next) :
    Writes store next := by
  unfold holdJob at hnext
  rcases bind_ok hnext with ⟨⟨key, job⟩, hjob, hnext⟩
  cases hnext
  rcases getJob_ok hjob with ⟨rfl, hget⟩
  exact Or.inr ⟨key, job, _, hget, rfl, rfl⟩

theorem pauseJob_writes {reason : Text} (hnext : pauseJob jobId reason store = .ok next) :
    Writes store next := by
  unfold pauseJob at hnext
  rcases bind_ok hnext with ⟨⟨key, job⟩, hjob, hnext⟩
  rcases unless_ok hnext with ⟨_, hnext⟩
  cases hnext
  rcases getJob_ok hjob with ⟨rfl, hget⟩
  exact Or.inr ⟨key, job, _, hget, rfl, rfl⟩

theorem resumeJob_writes {clear : List Text} {confirmHuman : Text}
    (hnext : resumeJob choice jobId clear confirmHuman store = .ok next) :
    Writes store next := by
  rcases resumeJob_ok hnext with ⟨job, hget, rfl⟩
  exact Or.inr ⟨jobId, job, _, hget, rfl, clearHolds_entry _ _⟩

theorem releaseJob_writes (hnext : releaseJob jobId store = .ok next) : Writes store next := by
  unfold releaseJob at hnext
  rcases bind_ok hnext with ⟨⟨key, job⟩, hjob, hnext⟩
  rcases unless_ok hnext with ⟨_, hnext⟩
  cases hnext
  rcases getJob_ok hjob with ⟨rfl, hget⟩
  exact Or.inr ⟨key, job, _, hget, rfl, rfl⟩

/-- Only a registration gives a job a name. -/
theorem mutate_writes {command : Command}
    (hnext : mutate platform choice command store = .ok next) :
    (∃ args, command = .addJob args ∧ addJob platform choice args store = .ok next) ∨
      Writes store next := by
  cases command with
  | addJob args => exact Or.inl ⟨args, rfl, hnext⟩
  | beginPass => exact Or.inr (Or.inl (beginPass_jobs hnext))
  | reserveVisit passId jobId requests => exact Or.inr (Or.inl (reserveVisit_jobs hnext))
  | recordObservation passId jobId reserved result =>
      exact Or.inr (recordObservation_writes hnext)
  | triageJob passId jobId decisions => exact Or.inr (triageJob_writes hnext)
  | planBatch passId jobId input => exact Or.inr (planBatch_writes hnext)
  | reportBatch batchId report => exact Or.inr (reportBatch_writes hnext)
  | cancelBatch batchId => exact Or.inr (cancelBatch_writes hnext)
  | holdJob jobId design reason sourceIds => exact Or.inr (holdJob_writes hnext)
  | pauseJob jobId reason => exact Or.inr (pauseJob_writes hnext)
  | resumeJob jobId clear confirmHuman => exact Or.inr (resumeJob_writes hnext)
  | releaseJob jobId => exact Or.inr (releaseJob_writes hnext)
  | endPass passId => exact Or.inr (Or.inl (endPass_jobs hnext))
  | recoverPass passId confirmStopped => exact Or.inr (Or.inl (recoverPass_jobs hnext))

/-! ### Registrations -/

/-- The jobs a pull request has, released ones too. -/
def registrations (store : Store) (url : Text) : Nat :=
  store.jobs.values.countP fun job => job.url = url

/-- A registration is written under its name, as the next of its URL. -/
theorem addJob_ok {runtime : UrlRuntime} {args : AddArgs}
    (hnext : addJob (sourcePlatform runtime platform) choice args store = .ok next) :
    ∃ provider url job, parsePrUrl runtime args.url = some (provider, url) ∧
      next.jobs = store.jobs.set job.jobId job ∧
      job.entry = (jobIdFor url (1 + registrations store url), url,
        1 + registrations store url) := by
  unfold addJob at hnext
  split at hnext
  · cases hnext
  · next provider url hparsed =>
    split at hnext
    · cases hnext
    split at hnext
    · cases hnext
    split at hnext
    · cases hnext
    split at hnext
    · cases hnext
    · cases hnext
      refine ⟨provider, url, _, hparsed, rfl, ?_⟩
      have hcount : (store.jobs.values.filter fun job => job.url = url).length =
          registrations store url := List.countP_eq_length_filter.symm
      rw [← hcount]
      rfl

/-- Every job is named by its URL and its number, and is among those its URL has, the first of
    which is there; and no two URLs are spelled alike. -/
structure Named (store : Store) : Prop where
  keyed : ∀ key job, store.jobs.get key = some job → job.jobId = key
  named : ∀ key job, store.jobs.get key = some job → key = jobIdFor job.url job.generation
  counted : ∀ key job, store.jobs.get key = some job → job.generation ≤ registrations store job.url
  first : ∀ key job, store.jobs.get key = some job →
    ∃ key' job', store.jobs.get key' = some job' ∧ job'.url = job.url ∧ job'.generation = 1
  apart : ∀ key job key' job', store.jobs.get key = some job → store.jobs.get key' = some job' →
    job.url ≠ job'.url → spelling job.url ≠ spelling job'.url

/-- What a command other than a registration leaves of the names. -/
theorem Writes.same (hwrites : Writes store next) :
    (∀ id, (next.jobs.get id).map Job.entry = (store.jobs.get id).map Job.entry) ∧
      ∀ url, registrations next url = registrations store url := by
  rcases hwrites with hjobs | ⟨key, job, job', hget, hjobs, hentry⟩
  · unfold registrations
    rw [hjobs]
    exact ⟨fun _ => rfl, fun _ => rfl⟩
  · constructor
    · intro id
      rw [hjobs, Table.get_set]
      by_cases hkey : id = key
      · rw [if_pos hkey, hkey, hget, Option.map_some, Option.map_some, hentry]
      · rw [if_neg hkey]
    · intro url
      have hurl : job'.url = job.url := congrArg (fun entry => entry.2.1) hentry
      have hset := store.jobs.countP_set (fun job => job.url = url) key job'
      rw [hget, Option.toList_some, List.countP_singleton, List.countP_singleton, hurl] at hset
      unfold registrations
      rw [hjobs]
      exact Nat.add_right_cancel hset

theorem Writes.found (hwrites : Writes store next) (hget : next.jobs.get key = some job) :
    ∃ old, store.jobs.get key = some old ∧ job.jobId = old.jobId ∧ job.url = old.url ∧
      job.generation = old.generation := by
  have hsame := hwrites.same.1 key
  rw [hget, Option.map_some, eq_comm, Option.map_eq_some_iff] at hsame
  rcases hsame with ⟨old, hold, hentry⟩
  simp only [Job.entry, Prod.mk.injEq] at hentry
  exact ⟨old, hold, hentry.1.symm, hentry.2.1.symm, hentry.2.2.symm⟩

theorem Writes.kept (hwrites : Writes store next) (hget : store.jobs.get key = some job) :
    ∃ job', next.jobs.get key = some job' ∧ job'.url = job.url ∧
      job'.generation = job.generation := by
  have hsame := hwrites.same.1 key
  rw [hget, Option.map_some, Option.map_eq_some_iff] at hsame
  rcases hsame with ⟨job', hjob', hentry⟩
  simp only [Job.entry, Prod.mk.injEq] at hentry
  exact ⟨job', hjob', hentry.2.1, hentry.2.2⟩

theorem Writes.named (hwrites : Writes store next) (h : Named store) : Named next := by
  refine ⟨?_, ?_, ?_, ?_, ?_⟩
  all_goals
    intro key job
  case refine_5 =>
    intro key' job' hget hget' hne
    rcases hwrites.found hget with ⟨old, hold, _, hurl, _⟩
    rcases hwrites.found hget' with ⟨old', hold', _, hurl', _⟩
    rw [hurl, hurl'] at hne ⊢
    exact h.apart key old key' old' hold hold' hne
  all_goals
    intro hget
    rcases hwrites.found hget with ⟨old, hold, hid, hurl, hgeneration⟩
  · rw [hid]
    exact h.keyed key old hold
  · rw [hurl, hgeneration]
    exact h.named key old hold
  · rw [hwrites.same.2, hurl, hgeneration]
    exact h.counted key old hold
  · rcases h.first key old hold with ⟨key', first, hfirst, hsame, hone⟩
    rcases hwrites.kept hfirst with ⟨first', hfirst', hsame', hone'⟩
    exact ⟨key', first', hfirst', hsame'.trans (hsame.trans hurl.symm), hone'.trans hone⟩

/-- No job of another pull request has the name a registration of `url` would get. -/
def Free (store : Store) (url : Text) : Prop :=
  ∀ job ∈ store.jobs.values, job.url ≠ url →
    jobIdFor job.url job.generation ≠ jobIdFor url (1 + registrations store url)

/-- The URL of no other pull request that was registered is spelled as `url` is; and where one
    of the two was registered before, it is not spelled like the other with the number of that
    registration behind. -/
def Unlike (store : Store) (url : Text) : Prop :=
  ∀ job ∈ store.jobs.values, job.url ≠ url →
    spelling job.url ≠ spelling url ∧
      (registrations store url ≠ 0 →
        spelling job.url ≠ numbered (spelling url) (1 + registrations store url)) ∧
      (registrations store url = 0 → job.generation ≠ 1 →
        spelling url ≠ numbered (spelling job.url) job.generation)

instance decidableUnlike (store : Store) (url : Text) : Decidable (Unlike store url) :=
  inferInstanceAs (Decidable (∀ job ∈ store.jobs.values, job.url ≠ url →
    spelling job.url ≠ spelling url ∧
      (registrations store url ≠ 0 →
        spelling job.url ≠ numbered (spelling url) (1 + registrations store url)) ∧
      (registrations store url = 0 → job.generation ≠ 1 →
        spelling url ≠ numbered (spelling job.url) job.generation)))

theorem jobIdFor_first (url : Text) : jobIdFor url 1 = spelling url := by
  rw [jobIdFor, if_pos rfl, slugFor_eq]

theorem jobIdFor_later {url : Text} {n : Nat} (h : n ≠ 1) :
    jobIdFor url n = numbered (spelling url) n := by
  rw [jobIdFor, if_neg h, slugFor_eq]

/-- A name is nobody else's exactly where the URLs are unlike. -/
theorem Named.free_iff (h : Named store) {url : Text} : Free store url ↔ Unlike store url := by
  constructor
  · intro hfree job hjob hne
    rcases (store.jobs.mem_values_iff job).mp hjob with ⟨key, hget⟩
    rcases h.first key job hget with ⟨key', first, hfirst, hurl, hone⟩
    have hname := hfree first ((store.jobs.mem_values_iff first).mpr ⟨key', hfirst⟩)
      (by rw [hurl]; exact hne)
    rw [hurl, hone, jobIdFor_first] at hname
    refine ⟨?_, fun hbefore => ?_, fun hnone hlater hspelled => ?_⟩
    · by_cases hnone : registrations store url = 0
      · rw [hnone, Nat.add_zero, jobIdFor_first] at hname
        exact hname
      · -- It was registered before, when the two were told apart.
        rcases List.countP_pos_iff.mp (Nat.pos_of_ne_zero hnone) with ⟨own, hown, hsame⟩
        rcases (store.jobs.mem_values_iff own).mp hown with ⟨ownKey, hgetOwn⟩
        have hsame := of_decide_eq_true hsame
        rw [← hsame] at hne ⊢
        exact h.apart key job ownKey own hget hgetOwn hne
    · rw [jobIdFor_later (by omega)] at hname
      exact hname
    · refine hfree job hjob hne ?_
      rw [hnone, Nat.add_zero, jobIdFor_first, jobIdFor_later hlater]
      exact hspelled.symm
  · intro hunlike job hjob hne hname
    rcases hunlike job hjob hne with ⟨hspelled, hbefore, hafter⟩
    by_cases hone : job.generation = 1
    · rw [hone, jobIdFor_first] at hname
      by_cases hnone : registrations store url = 0
      · rw [hnone, Nat.add_zero, jobIdFor_first] at hname
        exact hspelled hname
      · rw [jobIdFor_later (by omega)] at hname
        exact hbefore hnone hname
    · rw [jobIdFor_later hone] at hname
      by_cases hnone : registrations store url = 0
      · rw [hnone, Nat.add_zero, jobIdFor_first] at hname
        exact hafter hnone hone hname.symm
      · -- Numbers behind two spellings are read back.
        rw [jobIdFor_later (by omega)] at hname
        exact hspelled (decimal_behind ⟨by decide, by decide⟩ hname).1

/-- Every job stays under its id, and the one of `url` that is new has an id of its own. -/
structure Adds (store next : Store) (url : Text) : Prop where
  kept : ∀ key job, store.jobs.get key = some job → next.jobs.get key = some job
  fresh : ∃ job, job.url = url ∧ store.jobs.get job.jobId = none ∧
    next.jobs.get job.jobId = some job

/-- The next name of a URL is nobody's, where it is not that of another pull request. -/
theorem Named.get_next (h : Named store) {url : Text} (hfree : Free store url) :
    store.jobs.get (jobIdFor url (1 + registrations store url)) = none := by
  cases hget : store.jobs.get (jobIdFor url (1 + registrations store url)) with
  | none => rfl
  | some job =>
      exfalso
      have hname := h.named _ job hget
      by_cases hurl : job.url = url
      · -- Registrations of one pull request are numbered apart.
        rw [hurl] at hname
        have hnumber := jobIdFor_inj hname
        have hcount := h.counted _ job hget
        rw [hurl] at hcount
        omega
      · have hmem := (store.jobs.mem_values_iff job).mpr ⟨_, hget⟩
        exact hfree job hmem hurl hname.symm

/-- A registration that succeeds touches no other job exactly where the URLs are unlike. -/
theorem adds_iff {runtime : UrlRuntime} {args : AddArgs} (h : Named store)
    (hnext : addJob (sourcePlatform runtime platform) choice args store = .ok next) :
    ∃ provider url, parsePrUrl runtime args.url = some (provider, url) ∧
      (Adds store next url ↔ Unlike store url) := by
  rcases addJob_ok hnext with ⟨provider, url, job, hparsed, hjobs, hentry⟩
  refine ⟨provider, url, hparsed, ?_⟩
  rw [← h.free_iff]
  simp only [Job.entry, Prod.mk.injEq] at hentry
  rcases hentry with ⟨hid, hurl, -⟩
  constructor
  · rintro ⟨hkept, -⟩ other hother hne heq
    -- The other job of this name is overwritten.
    rcases (store.jobs.mem_values_iff other).mp hother with ⟨key, hget⟩
    have hstill := hkept key other hget
    rw [h.named key other hget, heq, ← hid, hjobs, Table.get_set_self] at hstill
    rw [Option.some.inj hstill] at hurl
    exact hne hurl
  · intro hfree
    have hnone : store.jobs.get job.jobId = none := by
      rw [hid]
      exact h.get_next hfree
    refine ⟨fun key old hold => ?_, job, hurl, hnone, ?_⟩
    · have hkey : key ≠ job.jobId := by
        rintro rfl
        rw [hnone] at hold
        cases hold
      rw [hjobs, Table.get_set_ne _ _ hkey]
      exact hold
    · rw [hjobs, Table.get_set_self]

/-- A registration of a URL that is unlike the others keeps the names apart. -/
theorem addJob_named {runtime : UrlRuntime} {args : AddArgs} (h : Named store)
    {provider : Provider} {url : Text} (hparsed : parsePrUrl runtime args.url = some (provider, url))
    (hunlike : Unlike store url)
    (hnext : addJob (sourcePlatform runtime platform) choice args store = .ok next) :
    Named next := by
  rcases addJob_ok hnext with ⟨provider', url', job, hparsed', hjobs, hentry⟩
  cases hparsed.symm.trans hparsed'
  simp only [Job.entry, Prod.mk.injEq] at hentry
  rcases hentry with ⟨hid, hurl, hgeneration⟩
  have hnone : store.jobs.get job.jobId = none := by
    rw [hid]
    exact h.get_next (h.free_iff.mpr hunlike)
  -- Its name is nobody's, so the job comes behind the others.
  have hvalues : next.jobs.values = store.jobs.values ++ [job] := by
    rw [hjobs]
    exact store.jobs.values_set_new job hnone
  have hcount : ∀ other, registrations next other =
      registrations store other + if url = other then 1 else 0 := by
    intro other
    unfold registrations
    rw [hvalues, List.countP_append, List.countP_singleton, hurl]
    by_cases hsame : url = other
    · rw [if_pos (by simpa using hsame), if_pos hsame]
    · rw [if_neg (by simpa using hsame), if_neg hsame]
  have hfound : ∀ key found, next.jobs.get key = some found →
      (key = job.jobId ∧ found = job) ∨ store.jobs.get key = some found := by
    intro key found hfound
    rw [hjobs] at hfound
    exact (Table.get_set_some hfound).imp_right And.right
  have hkept : ∀ key old, store.jobs.get key = some old → next.jobs.get key = some old := by
    intro key old hold
    have hkey : key ≠ job.jobId := by
      rintro rfl
      rw [hnone] at hold
      cases hold
    rw [hjobs, Table.get_set_ne _ _ hkey]
    exact hold
  refine ⟨?_, ?_, ?_, fun key found hget => ?_, fun key found key' found' hget hget' hne => ?_⟩
  case refine_4 =>
    rcases hfound key found hget with ⟨rfl, rfl⟩ | hold
    · by_cases hfirst : registrations store url = 0
      · refine ⟨_, found, hget, rfl, ?_⟩
        rw [hgeneration, hfirst]
      · -- An earlier registration of the same pull request leads to the first one.
        rcases List.countP_pos_iff.mp (Nat.pos_of_ne_zero hfirst) with ⟨own, hown, hsame⟩
        rcases (store.jobs.mem_values_iff own).mp hown with ⟨ownKey, hgetOwn⟩
        rcases h.first ownKey own hgetOwn with ⟨key', first, hget', hurl', hone⟩
        exact ⟨key', first, hkept key' first hget',
          hurl'.trans ((of_decide_eq_true hsame).trans hurl.symm), hone⟩
    · rcases h.first key found hold with ⟨key', first, hget', hurl', hone⟩
      exact ⟨key', first, hkept key' first hget', hurl', hone⟩
  case refine_5 =>
    have hnew : ∀ other old, store.jobs.get other = some old → old.url ≠ url →
        spelling old.url ≠ spelling url := fun other old hold hother =>
      (hunlike old ((store.jobs.mem_values_iff old).mpr ⟨other, hold⟩) hother).1
    rcases hfound key found hget with ⟨rfl, rfl⟩ | hold
    · rcases hfound key' found' hget' with ⟨rfl, rfl⟩ | hold'
      · exact absurd rfl hne
      · rw [hurl] at hne ⊢
        exact (hnew key' found' hold' hne.symm).symm
    · rcases hfound key' found' hget' with ⟨rfl, rfl⟩ | hold'
      · rw [hurl] at hne ⊢
        exact hnew key found hold hne
      · exact h.apart key found key' found' hold hold' hne
  all_goals
    intro key found hget
    rcases hfound key found hget with ⟨rfl, rfl⟩ | hold
  · rfl
  · exact h.keyed key found hold
  · rw [hurl, hgeneration]
    exact hid
  · exact h.named key found hold
  · rw [hcount, hurl, if_pos rfl, hgeneration]
    omega
  · rw [hcount]
    exact Nat.le_add_right_of_le (h.counted key found hold)

/-! ### Runs -/

/-- A registration is asked for of a URL that is unlike those of other pull requests. -/
def Apart (runtime : UrlRuntime) (store : Store) (command : Command × Choice) : Prop :=
  match command.1 with
  | .addJob args => ∀ parsed ∈ parsePrUrl runtime args.url, Unlike store parsed.2
  | _ => True

instance decidableApart (runtime : UrlRuntime) (store : Store) :
    ∀ command, Decidable (Apart runtime store command)
  | (.addJob args, _) =>
      inferInstanceAs (Decidable (∀ parsed ∈ parsePrUrl runtime args.url, Unlike store parsed.2))
  | (.beginPass, _) | (.reserveVisit .., _) | (.recordObservation .., _) | (.triageJob .., _)
  | (.planBatch .., _) | (.reportBatch .., _) | (.cancelBatch .., _) | (.holdJob .., _)
  | (.pauseJob .., _) | (.resumeJob .., _) | (.releaseJob .., _) | (.endPass .., _)
  | (.recoverPass .., _) => isTrue trivial

/-- The ids of a store keep naming jobs of their URLs. -/
def Extends (store next : Store) : Prop :=
  ∀ key job, store.jobs.get key = some job →
    ∃ job', next.jobs.get key = some job' ∧ job'.url = job.url

theorem named_empty : Named {} where
  keyed _ _ h := nomatch h
  named _ _ h := nomatch h
  counted _ _ h := nomatch h
  first _ _ h := nomatch h
  apart _ _ _ _ h := nomatch h

/-- One command, from a store whose jobs are named. -/
theorem transact_apart {runtime : UrlRuntime} (command : Command × Choice) (h : Named store)
    (hapart : Apart runtime store command) :
    Named (transact (sourcePlatform runtime platform) store command) ∧
      Extends store (transact (sourcePlatform runtime platform) store command) := by
  have hrefl : Named store ∧ Extends store store := ⟨h, fun _ job hget => ⟨job, hget, rfl⟩⟩
  unfold transact
  cases hnext : mutate (sourcePlatform runtime platform) command.2 command.1 store with
  | error code => exact hrefl
  | ok next =>
      by_cases hsaved : command.2.saved = true
      · simp only [hsaved, if_true]
        rcases mutate_writes hnext with ⟨args, hcommand, hadd⟩ | hwrites
        · rcases adds_iff h hadd with ⟨provider, url, hparsed, hiff⟩
          unfold Apart at hapart
          rw [hcommand] at hapart
          have hunlike := hapart (provider, url) hparsed
          refine ⟨addJob_named h hparsed hunlike hadd, fun key job hget => ?_⟩
          exact ⟨job, (hiff.mpr hunlike).kept key job hget, rfl⟩
        · refine ⟨hwrites.named h, fun key job hget => ?_⟩
          rcases hwrites.kept hget with ⟨job', hget', hurl, _⟩
          exact ⟨job', hget', hurl⟩
      · simp only [hsaved]
        exact hrefl

/-- In every run whose registrations were of URLs unlike each other, a registration that succeeds
    touches no other job and gets an id of its own exactly where its URL is unlike those before,
    and an id once given keeps naming a job of the same pull request. -/
theorem registrations_apart (runtime : UrlRuntime) (platform : Platform)
    (commands : List (Command × Choice))
    (hapart : Run.Admits (transact (sourcePlatform runtime platform)) (Apart runtime) {} commands) :
    let run := Run.final (transact (sourcePlatform runtime platform)) ({} : Store)
    (∀ choice args next,
      addJob (sourcePlatform runtime platform) choice args (run commands) = .ok next →
        ∃ provider url, parsePrUrl runtime args.url = some (provider, url) ∧
          (Adds (run commands) next url ↔ Unlike (run commands) url)) ∧
    ∀ before after, commands = before ++ after → Extends (run before) (run commands) := by
  intro run
  have hnamed : ∀ {store : Store} {rest : List (Command × Choice)}, Named store →
      Run.Admits (transact (sourcePlatform runtime platform)) (Apart runtime) store rest →
        Named (Run.final (transact (sourcePlatform runtime platform)) store rest) ∧
          Extends store (Run.final (transact (sourcePlatform runtime platform)) store rest) := by
    intro store rest hstore hrest
    refine Run.invariant_of_admits _ (Apart runtime)
      (fun final => Named final ∧ Extends store final) ?_ rest store
      ⟨hstore, fun _ job hget => ⟨job, hget, rfl⟩⟩ hrest
    rintro here command ⟨hhere, hext⟩ hok
    have hstep : Named (transact (sourcePlatform runtime platform) here command) ∧
        Extends here (transact (sourcePlatform runtime platform) here command) :=
      transact_apart command hhere hok
    refine ⟨hstep.1, fun key job hget => ?_⟩
    rcases hext key job hget with ⟨job', hget', hurl⟩
    rcases hstep.2 key job' hget' with ⟨job'', hget'', hurl'⟩
    exact ⟨job'', hget'', hurl'.trans hurl⟩
  refine ⟨fun choice args next hadd => adds_iff (hnamed named_empty hapart).1 hadd, ?_⟩
  rintro before after rfl
  rw [Run.admits_append] at hapart
  have hbefore := (hnamed named_empty hapart.1).1
  change Extends (run before) (Run.final _ {} (before ++ after))
  rw [Run.final_append]
  exact (hnamed hbefore hapart.2).2

/-! ### Two pull requests under one name -/

/-- A runtime for plain addresses, which nothing has to be decoded of. -/
def plainRuntime : UrlRuntime where
  newUrl value :=
    if (ofString "https://").isPrefixOf value then
      some {
        protocol := ofString "https:"
        hostname := (value.drop 8).takeWhile (· ≠ 0x2F)
        pathname := (value.drop 8).dropWhile (· ≠ 0x2F) }
    else none
  decodeURIComponent := some
  encodeURIComponent := id
  toLowerCase := lower
  trim := id

def watching (url : String) : AddArgs where
  url := ofString url
  mode := .observe
  checkout := none
  resolveThreads := false
  interval := 900000
  budgets := {}

def firstUrl : String := "https://github.com/a-b/c/pull/1"

def secondUrl : String := "https://github.com/a/b-c/pull/1"

/-- A store that watches the first pull request. -/
def watchingFirst : List (Command × Choice) := [(.addJob (watching firstUrl), atMinute 0)]

/-- The URL of the job under an id. -/
def Store.urlOf (store : Store) (jobId : Text) : Option Text :=
  (store.jobs.get jobId).map Job.url

theorem second_takes_place_of_first :
    let store := Run.final (transact (sourcePlatform plainRuntime localPlatform)) {} watchingFirst
    store.urlOf (ofString "github-com-a-b-c-1") = some (ofString firstUrl) ∧
      (addJob (sourcePlatform plainRuntime localPlatform) (atMinute 1) (watching secondUrl)
        store).toOption.bind (fun next => next.urlOf (ofString "github-com-a-b-c-1")) =
          some (ofString secondUrl) := by
  decide +kernel

/-- Three pull requests, of which the first is given up and taken on again. -/
def watchingThree : List (Command × Choice) := [
  (.addJob (watching firstUrl), atMinute 0),
  (.addJob (watching "https://github.com/a/d/pull/1"), atMinute 1),
  (.releaseJob (ofString "github-com-a-b-c-1"), atMinute 2),
  (.addJob (watching firstUrl), atMinute 3),
  (.addJob (watching "https://dev.azure.com/a/b/_git/c/pullrequest/7"), atMinute 4)]

theorem registrations_apart_three :
    let run := Run.final (transact (sourcePlatform plainRuntime localPlatform)) ({} : Store)
    (run watchingThree).jobs.entries.map Prod.fst = [ofString "github-com-a-b-c-1",
      ofString "github-com-a-d-1", ofString "github-com-a-b-c-1-g2",
      ofString "dev-azure-com-a-b-c-7"] ∧
    Extends (run (watchingThree.take 2)) (run watchingThree) ∧
      ∀ next, addJob (sourcePlatform plainRuntime localPlatform) (atMinute 5) (watching secondUrl)
          (run watchingThree) = .ok next →
        ∃ provider url, parsePrUrl plainRuntime (ofString secondUrl) = some (provider, url) ∧
          (Adds (run watchingThree) next url ↔ Unlike (run watchingThree) url) := by
  have h := registrations_apart plainRuntime localPlatform watchingThree (by decide +kernel)
  exact ⟨by decide +kernel, h.2 (watchingThree.take 2) (watchingThree.drop 2) rfl,
    fun next hnext => h.1 (atMinute 5) _ next hnext⟩

end PrmSkill

end CopilotFleet
