import CopilotFleet.Host.TranscriptProjection
import CopilotFleet.Lib.Table

/-!
# The Browser's Copies of Transcripts

Each copy starts as the newest page and then follows the Host change by
change, in revision order. Anything that breaks that order asks for a resync
instead of guessing. Older pages join on in front, with the revision they were
read at kept as a stamp on each of their blocks, and copies that are not on
screen are cut back to their newest page.

An entry with its view is a `Replica.Copy`, and the cache's own operation on
one change is one of the ways such a copy can move (`applyTo_follows`).

## Main definitions

* `TranscriptView`: A contiguous run of blocks through the newest.
* `Entry`: A view, its stamps, and what waits for a newest page.
* `TranscriptCache`: The entries and their limits.
* `applyTo`: Following one update.
* `receive`, `receiveOlder`, `trim`: The cache's other operations.

## Theorems

* `applyTo_follows`: The next update keeps a copy following.
* `applyAll_follows`: So do the updates that waited for a page.
* `joinOlder_follows`: So does an older page nothing has overtaken.
* `trim_get`: What trimming may do to an entry.
-/

namespace CopilotFleet

namespace Transcript

open Utf16

/-- A contiguous run of a session's blocks, from `start` through the newest. -/
structure TranscriptView where
  generation : Text
  revision : Nat
  epoch : Nat
  start : Nat
  total : Nat
  blocks : List TerminalBlock
  prompts : List PromptMark

inductive TranscriptApplyResult where
  | applied
  | ignored
  | resync
  deriving DecidableEq, Repr

structure Entry where
  view : Option TranscriptView
  /-- The revision each loaded block already reflects. -/
  stamps : List Nat
  /-- The newest page is in flight; changes wait for it. -/
  loading : Bool
  buffered : List TranscriptUpdate
  used : Nat

structure TranscriptCache where
  maxViews : Nat
  keepBlocks : Nat
  entries : Table Text Entry
  clock : Nat

/-- Follow one update on a view. Nothing is written on a resync. -/
def applyToView (entry : Entry) (view : TranscriptView) (update : TranscriptUpdate) :
    TranscriptApplyResult × Entry :=
  if update.generation ≠ view.generation then (.resync, entry)
  else if update.revision ≤ view.revision then (.ignored, entry)
  else if update.revision ≠ view.revision + 1 then (.resync, entry)
  else
    let index := update.change.index
    let passed := { view with revision := update.revision }
    if index < view.start then
      -- Fetching that block later returns the Host's current version of it.
      (.applied, { entry with view := some passed })
    else
      let offset := index - view.start
      if offset < view.blocks.length then
        if entry.stamps.getD offset 0 < update.revision then
          match changedBlock view.blocks[offset]? update.change with
          | none => (.resync, entry)
          | some next =>
              (.applied, { entry with
                view := some { passed with blocks := view.blocks.set offset next }
                stamps := entry.stamps.set offset update.revision })
        else (.applied, { entry with view := some passed })
      else
        match update.change with
        | .block _ block =>
            if offset = view.blocks.length then
              (.applied, { entry with
                view := some { passed with
                  blocks := view.blocks ++ [block]
                  total := max view.total (index + 1)
                  prompts :=
                    if block.kind = .user then
                      view.prompts ++ [TranscriptProjector.promptMark index block]
                    else view.prompts }
                stamps := entry.stamps ++ [update.revision] })
            else (.resync, entry)
        | .append _ _ => (.resync, entry)

def applyTo (entry : Entry) (update : TranscriptUpdate) : TranscriptApplyResult × Entry :=
  match entry.view with
  | none => (.ignored, entry)
  | some view => applyToView entry view update

/-- Follow several updates, until one asks for a resync. -/
def applyAll : Entry → List TranscriptUpdate → Bool × Entry
  | entry, [] => (true, entry)
  | entry, update :: rest =>
      let applied := applyTo entry update
      if applied.1 = .resync then (false, applied.2) else applyAll applied.2 rest

/-- An older page joined on in front of a view, when it reaches it. -/
def joinOlder (entry : Entry) (view : TranscriptView) (page : TranscriptPage) : Bool × Entry :=
  if page.generation ≠ view.generation then (false, entry)
  else if view.start ≤ page.start then (true, entry)
  else if page.start + page.blocks.length < view.start then (false, entry)
  else
    let older := page.blocks.take (view.start - page.start)
    (true, { entry with
      view := some { view with start := page.start, blocks := older ++ view.blocks }
      stamps := older.map (fun _ => page.revision) ++ entry.stamps })

/-- A copy cut back to its newest blocks. -/
def cutBack (keepBlocks : Nat) (entry : Entry) : Entry :=
  match entry.view with
  | none => entry
  | some view =>
      let extra := view.blocks.length - keepBlocks
      if extra = 0 then entry
      else
        { entry with
          view := some { view with start := view.start + extra, blocks := view.blocks.drop extra }
          stamps := entry.stamps.drop extra }

namespace TranscriptCache

def view (cache : TranscriptCache) (sessionId : Text) : Option TranscriptView :=
  (cache.entries.get sessionId).bind (·.view)

/-- The entry of a session, made when it is not there. -/
def entry (cache : TranscriptCache) (sessionId : Text) : Entry × TranscriptCache :=
  match cache.entries.get sessionId with
  | some entry => (entry, cache)
  | none =>
      let made : Entry :=
        { view := none, stamps := [], loading := false, buffered := [], used := cache.clock + 1 }
      (made, { cache with
        clock := cache.clock + 1
        entries := cache.entries.set sessionId made })

/-- The newest page was requested: hold changes until it arrives. -/
def begin (cache : TranscriptCache) (sessionId : Text) : TranscriptCache :=
  let found := cache.entry sessionId
  { found.2 with
    entries := found.2.entries.set sessionId { found.1 with loading := true, buffered := [] } }

/-- The request was abandoned; a copy that never arrived is forgotten. -/
def cancel (cache : TranscriptCache) (sessionId : Text) : TranscriptCache :=
  match cache.entries.get sessionId with
  | none => cache
  | some entry =>
      if entry.view.isNone then { cache with entries := cache.entries.erase sessionId }
      else
        { cache with
          entries := cache.entries.set sessionId { entry with loading := false, buffered := [] } }

/-- Replace the copy with the newest page; false when it must be fetched again. -/
def receive (cache : TranscriptCache) (sessionId : Text) (page : TranscriptPage) :
    Bool × TranscriptCache :=
  let found := cache.entry sessionId
  let loaded : Entry :=
    { found.1 with
      loading := false
      buffered := []
      view := some
        { generation := page.generation
          revision := page.revision
          epoch := (found.1.view.map (·.epoch)).getD 0 + 1
          start := page.start
          total := page.total
          blocks := page.blocks
          prompts := page.prompts.getD [] }
      stamps := page.blocks.map fun _ => page.revision }
  let caught := applyAll loaded found.1.buffered
  (caught.1, { found.2 with entries := found.2.entries.set sessionId caught.2 })

/-- Prepend older blocks; false when the Host's projection changed meanwhile. -/
def receiveOlder (cache : TranscriptCache) (sessionId : Text) (page : TranscriptPage) :
    Bool × TranscriptCache :=
  match cache.entries.get sessionId with
  | none => (true, cache)
  | some entry =>
      match entry.view with
      | none => (true, cache)
      | some view =>
          let joined := joinOlder entry view page
          (joined.1, { cache with entries := cache.entries.set sessionId joined.2 })

def apply (cache : TranscriptCache) (sessionId : Text) (update : TranscriptUpdate) :
    TranscriptApplyResult × TranscriptCache :=
  match cache.entries.get sessionId with
  | none => (.ignored, cache)
  | some entry =>
      if entry.loading then
        (.ignored, { cache with
          entries := cache.entries.set sessionId
            { entry with buffered := entry.buffered ++ [update] } })
      else
        let applied := applyTo entry update
        (applied.1, { cache with entries := cache.entries.set sessionId applied.2 })

def drop (cache : TranscriptCache) (sessionId : Text) : TranscriptCache :=
  { cache with entries := cache.entries.erase sessionId }

/-- The copy used longest ago that may be forgotten. -/
def oldest (cache : TranscriptCache) (active : Text) : Option (Text × Nat) :=
  cache.entries.entries.foldl (fun found e =>
    if e.1 = active || e.2.loading then found
    else
      match found with
      | none => some (e.1, e.2.used)
      | some best => if e.2.used < best.2 then some (e.1, e.2.used) else found) none

/-- Forget copies past the limit; each round forgets one. -/
def evict (active : Text) : Nat → TranscriptCache → TranscriptCache
  | 0, cache => cache
  | rounds + 1, cache =>
      if cache.entries.size ≤ cache.maxViews then cache
      else
        match cache.oldest active with
        | none => cache
        | some found => evict active rounds (cache.drop found.1)

/-- The copy on screen is the one used last. -/
def touch (cache : TranscriptCache) (active : Text) : TranscriptCache :=
  match cache.entries.get active with
  | none => cache
  | some entry =>
      { cache with
        clock := cache.clock + 1
        entries := cache.entries.set active { entry with used := cache.clock + 1 } }

/-- Every copy but the one on screen cut back. -/
def cutOthers (cache : TranscriptCache) (active : Text) : TranscriptCache :=
  { cache with
    entries := cache.entries.mapValues fun sessionId entry =>
      if sessionId = active then entry else cutBack cache.keepBlocks entry }

/-- Keep memory bounded while `active` is on screen. -/
def trim (cache : TranscriptCache) (active : Text) : TranscriptCache :=
  let cut := (cache.touch active).cutOthers active
  evict active cut.entries.size cut

end TranscriptCache

/-! ### Following the Host -/

section Following

variable {base : List TerminalBlock} {changes : List TranscriptChange}

/-- A view with its stamps, as a copy of the Host's document. -/
def copyOf (entry : Entry) (view : TranscriptView) : Replica.Copy TerminalBlock :=
  { start := view.start, revision := view.revision, blocks := view.blocks, stamps := entry.stamps }

/-- A loaded entry whose copy follows the Host's document of one generation. -/
def EntryFollows (generation : Text) (base : List TerminalBlock)
    (changes : List TranscriptChange) (entry : Entry) (view : TranscriptView) : Prop :=
  entry.view = some view ∧ view.generation = generation ∧
    Replica.Follows blockEdits base changes (copyOf entry view)

/-- What following one update does: the copy goes on following, to at least
    that update's revision, and nothing else of the entry changes. -/
theorem applyTo_follows {generation : Text} (hcons : Replica.Consistent blockEdits base changes)
    {entry : Entry} {view : TranscriptView}
    (h : EntryFollows generation base changes entry view) {update : TranscriptUpdate}
    (hgeneration : update.generation = generation) {k : Nat} (hk : update.revision = k + 1)
    (hchange : changes[k]? = some update.change) (hnext : k ≤ view.revision) :
    (applyTo entry update).1 ≠ .resync ∧
      (applyTo entry update).2.loading = entry.loading ∧
      (applyTo entry update).2.buffered = entry.buffered ∧
      ∃ view', EntryFollows generation base changes (applyTo entry update).2 view' ∧
        k + 1 ≤ view'.revision ∧ view.revision ≤ view'.revision := by
  rcases h with ⟨hview, hgen, hfollows⟩
  unfold applyTo
  rw [hview]
  simp only [applyToView]
  rw [if_neg (by rw [hgeneration, hgen]; exact not_not_intro rfl)]
  by_cases hold : update.revision ≤ view.revision
  · rw [if_pos hold]
    exact ⟨by simp, rfl, rfl, view, ⟨hview, hgen, hfollows⟩, by omega, le_rfl⟩
  have hrev : view.revision = k := by omega
  have hcurrent : changes[(copyOf entry view).revision]? = some update.change := by
    rw [← hchange, ← hrev]
    rfl
  rw [if_neg hold, if_neg (by omega)]
  by_cases hbefore : update.change.index < view.start
  · rw [if_pos hbefore]
    refine ⟨by simp, rfl, rfl, _, ⟨rfl, hgen, ?_⟩, by simp [hk], by simp only []; omega⟩
    have hskip := hfollows.skip hcons hcurrent hbefore
    simpa [copyOf, hk, hrev] using hskip
  rw [if_neg hbefore]
  have hindex : update.change.index = view.start + (update.change.index - view.start) := by omega
  generalize update.change.index - view.start = offset at hindex
  by_cases hinside : offset < view.blocks.length
  · rw [if_pos hinside]
    have hlen : offset < entry.stamps.length := by
      have hstamps := hfollows.stamps_length
      simp only [copyOf] at hstamps
      omega
    have hstamp : entry.stamps[offset]? = some (entry.stamps.getD offset 0) := by
      rw [List.getD_eq_getElem?_getD, List.getElem?_eq_getElem hlen]
      rfl
    by_cases hearly : entry.stamps.getD offset 0 < update.revision
    · rw [if_pos hearly]
      cases hnextBlock : changedBlock view.blocks[offset]? update.change with
      | none =>
          -- A block that is there can always be changed.
          rw [List.getElem?_eq_getElem hinside] at hnextBlock
          cases hupdate : update.change with
          | append index append =>
              rw [hupdate] at hnextBlock
              simp [changedBlock] at hnextBlock
          | block index block =>
              rw [hupdate] at hnextBlock
              simp [changedBlock] at hnextBlock
      | some next =>
          refine ⟨by simp, rfl, rfl, _, ⟨rfl, hgen, ?_⟩, by simp [hk], by simp only []; omega⟩
          have hreplace := hfollows.replace hcons hcurrent offset hindex hstamp
            (by simp only [copyOf]; omega) hnextBlock
          simpa [copyOf, hk, hrev] using hreplace
    · rw [if_neg hearly]
      refine ⟨by simp, rfl, rfl, _, ⟨rfl, hgen, ?_⟩, by simp [hk], by simp only []; omega⟩
      have hkept := hfollows.kept hcons hcurrent offset hindex hstamp
        (by simp only [copyOf]; omega)
      simpa [copyOf, hk, hrev] using hkept
  · rw [if_neg hinside]
    -- The change applies to the Host's document, so it is the next block there.
    have hfits := hcons _ _ hcurrent
    have hreach := hfollows.reach
    simp only [copyOf] at hreach hfits
    have hle : update.change.index ≤ view.start + view.blocks.length := by
      rw [hreach]
      exact hfits.1
    have hoffset : offset = view.blocks.length := by omega
    cases hupdate : update.change with
    | append index append =>
        have hsome := hfits.2
        have hnone : (Replica.version blockEdits base changes view.revision)[
            blockEdits.index update.change]? = none := by
          rw [List.getElem?_eq_none]
          rw [← hreach]
          change view.start + view.blocks.length ≤ update.change.index
          omega
        rw [hnone, hupdate] at hsome
        exact absurd hsome (by simp [blockEdits, changedBlock])
    | block index block =>
        simp only []
        rw [if_pos hoffset]
        refine ⟨by simp, rfl, rfl, _, ⟨rfl, hgen, ?_⟩, by simp [hk], by simp only []; omega⟩
        rw [hupdate] at hcurrent
        have hpush := hfollows.push hcons hcurrent (b := block)
          (by rw [hupdate] at hindex; simp only [copyOf, blockEdits]; rw [hindex, hoffset]) rfl
        simpa [copyOf, hk, hrev] using hpush

/-- The updates that waited keep the copy following, each after the one
    before it. -/
theorem applyAll_follows (generation : Text) (hcons : Replica.Consistent blockEdits base changes)
    (updates : List TranscriptUpdate) (k : Nat) :
    ∀ (entry : Entry) {view : TranscriptView}, EntryFollows generation base changes entry view →
    (∀ i u, updates[i]? = some u → u.generation = generation ∧ u.revision = k + i + 1 ∧
      changes[k + i]? = some u.change) → k ≤ view.revision →
    (applyAll entry updates).1 = true ∧
      (applyAll entry updates).2.loading = entry.loading ∧
      ∃ view', EntryFollows generation base changes (applyAll entry updates).2 view' ∧
        k + updates.length ≤ view'.revision := by
  induction updates generalizing k with
  | nil =>
      intro entry view h _ hle
      exact ⟨rfl, rfl, view, h, by simpa using hle⟩
  | cons update rest ih =>
      intro entry view h hupdates hle
      have hhead := hupdates 0 update rfl
      rcases applyTo_follows hcons h hhead.1 hhead.2.1 hhead.2.2 hle with
        ⟨hok, hloading, _, view', hview', hrev, _⟩
      simp only [applyAll]
      rw [if_neg hok]
      have hrest := ih (k + 1) _ hview' (fun i u hu => by
        have htail := hupdates (i + 1) u (by simpa using hu)
        refine ⟨htail.1, by rw [htail.2.1]; omega, ?_⟩
        rw [← htail.2.2]
        congr 1
        omega) hrev
      refine ⟨hrest.1, hrest.2.1.trans hloading, ?_⟩
      rcases hrest.2.2 with ⟨last, hlast, hreach⟩
      exact ⟨last, hlast, by simp only [List.length_cons]; omega⟩

/-- An answered page of the Host's document at its own revision. -/
structure PageOf (generation : Text) (base : List TerminalBlock)
    (changes : List TranscriptChange) (page : TranscriptPage) : Prop where
  generation_eq : page.generation = generation
  revision_le : page.revision ≤ changes.length
  reach_le : page.start + page.blocks.length ≤
    (Replica.version blockEdits base changes page.revision).length
  block_eq : ∀ i < page.blocks.length,
    (Replica.version blockEdits base changes page.revision)[page.start + i]? = page.blocks[i]?

theorem PageOf.more {generation : Text} {page : TranscriptPage}
    (h : PageOf generation base changes page) (change : TranscriptChange) :
    PageOf generation base (changes ++ [change]) page where
  generation_eq := h.generation_eq
  revision_le := by
    have hle := h.revision_le
    simp only [List.length_append]
    omega
  reach_le := by
    rw [Replica.version_append blockEdits base changes [change] h.revision_le]
    exact h.reach_le
  block_eq := by
    rw [Replica.version_append blockEdits base changes [change] h.revision_le]
    exact h.block_eq

/-- Some change between the page and the view touched a block the page brings. -/
def Overtaken (changes : List TranscriptChange) (page : TranscriptPage) (view : TranscriptView) :
    Prop :=
  ∃ k c, page.revision ≤ k ∧ k < view.revision ∧ changes[k]? = some c ∧
    page.start ≤ c.index ∧ c.index < view.start

theorem joinOlder_follows {generation : Text} {entry : Entry} {view : TranscriptView}
    (h : EntryFollows generation base changes entry view) {page : TranscriptPage}
    (hpage : PageOf generation base changes page)
    (hclean : page.start < view.start → view.start ≤ page.start + page.blocks.length →
      ¬ Overtaken changes page view) :
    (joinOlder entry view page).2.loading = entry.loading ∧
      ∃ view', EntryFollows generation base changes (joinOlder entry view page).2 view' ∧
        view'.revision = view.revision := by
  rcases h with ⟨hview, hgen, hfollows⟩
  unfold joinOlder
  rw [if_neg (by rw [hpage.generation_eq, hgen]; exact not_not_intro rfl)]
  by_cases hcovered : view.start ≤ page.start
  · rw [if_pos hcovered]
    exact ⟨rfl, view, ⟨hview, hgen, hfollows⟩, rfl⟩
  rw [if_neg hcovered]
  by_cases hshort : page.start + page.blocks.length < view.start
  · rw [if_pos hshort]
    exact ⟨rfl, view, ⟨hview, hgen, hfollows⟩, rfl⟩
  rw [if_neg hshort]
  refine ⟨rfl, _, ⟨rfl, hgen, ?_⟩, rfl⟩
  have hlen : (page.blocks.take (view.start - page.start)).length = view.start - page.start := by
    rw [List.length_take]
    omega
  refine hfollows.older (r := page.revision) hpage.revision_le ?_ ?_ ?_
  · simp only [copyOf]
    omega
  · intro i hi
    rw [hlen] at hi
    rw [hpage.block_eq i (by omega), List.getElem?_take_of_lt hi]
  · rintro k c hk hks hc ⟨hlow, hhigh⟩
    exact hclean (by omega) (by omega) ⟨k, c, hk, hks, hc, hlow, hhigh⟩

theorem cutBack_follows {generation : Text} {entry : Entry} {view : TranscriptView}
    (h : EntryFollows generation base changes entry view) (keepBlocks : Nat) :
    ∃ view', EntryFollows generation base changes (cutBack keepBlocks entry) view' ∧
      view'.revision = view.revision := by
  rcases h with ⟨hview, hgen, hfollows⟩
  unfold cutBack
  rw [hview]
  simp only []
  by_cases hextra : view.blocks.length - keepBlocks = 0
  · rw [if_pos hextra]
    exact ⟨view, ⟨hview, hgen, hfollows⟩, rfl⟩
  · rw [if_neg hextra]
    exact ⟨_, ⟨rfl, hgen, hfollows.drop (k := view.blocks.length - keepBlocks)
      (by simp only [copyOf]; omega)⟩, rfl⟩

end Following

/-- Cutting a copy back does not touch its load. -/
theorem cutBack_load (keepBlocks : Nat) (entry : Entry) :
    (cutBack keepBlocks entry).loading = entry.loading ∧
      (cutBack keepBlocks entry).buffered = entry.buffered := by
  unfold cutBack
  cases entry.view with
  | none => exact ⟨rfl, rfl⟩
  | some view =>
      simp only []
      split <;> exact ⟨rfl, rfl⟩

/-! ### What reaches the entry of one session -/

namespace TranscriptCache

/-- What is forgotten is there and not loading. -/
theorem oldest_get {cache : TranscriptCache} {active : Text} {found : Text × Nat}
    (h : cache.oldest active = some found) :
    ∃ entry, cache.entries.get found.1 = some entry ∧ entry.loading = false := by
  -- Over the entries passed: the best so far is one of them and idle.
  have hscan : ∀ (seen : List (Text × Entry)) (start : Option (Text × Nat)),
      (∀ e ∈ seen, e ∈ cache.entries.entries) →
      (∀ best, start = some best →
        ∃ entry, (best.1, entry) ∈ cache.entries.entries ∧ entry.loading = false) →
      ∀ best, seen.foldl (fun found e =>
        if e.1 = active || e.2.loading then found
        else
          match found with
          | none => some (e.1, e.2.used)
          | some best => if e.2.used < best.2 then some (e.1, e.2.used) else found) start =
        some best → ∃ entry, (best.1, entry) ∈ cache.entries.entries ∧ entry.loading = false := by
    intro seen
    induction seen with
    | nil =>
        intro start _ hstart best hbest
        exact hstart best hbest
    | cons e rest ih =>
        intro start hmem hstart best hbest
        rw [List.foldl_cons] at hbest
        refine ih _ (fun x hx => hmem x (List.mem_cons_of_mem e hx)) ?_ best hbest
        intro candidate hcandidate
        by_cases hskip : (decide (e.1 = active) || e.2.loading) = true
        · rw [if_pos hskip] at hcandidate
          exact hstart candidate hcandidate
        · rw [if_neg hskip] at hcandidate
          have hidle : e.2.loading = false := by
            rw [Bool.or_eq_true, not_or] at hskip
            exact Bool.eq_false_iff.mpr hskip.2
          have hhere : ∃ entry, (e.1, entry) ∈ cache.entries.entries ∧ entry.loading = false :=
            ⟨e.2, hmem e List.mem_cons_self, hidle⟩
          cases hs : start with
          | none =>
              rw [hs] at hcandidate
              simp only [Option.some.injEq] at hcandidate
              rw [← hcandidate]
              exact hhere
          | some current =>
              rw [hs] at hcandidate
              simp only [] at hcandidate
              by_cases hused : e.2.used < current.2
              · rw [if_pos hused, Option.some.injEq] at hcandidate
                rw [← hcandidate]
                exact hhere
              · rw [if_neg hused] at hcandidate
                exact hstart candidate (hs.trans hcandidate)
  rcases hscan cache.entries.entries none (fun _ he => he) (by simp) found h with
    ⟨entry, hentry, hidle⟩
  exact ⟨entry, (cache.entries.mem_entries_iff _ _).mp hentry, hidle⟩

/-- Forgetting copies leaves an entry as it is or forgets it, and never one
    that is loading. -/
theorem evict_get (active sessionId : Text) (rounds : Nat) (cache : TranscriptCache) :
    (evict active rounds cache).entries.get sessionId = cache.entries.get sessionId ∨
      ((evict active rounds cache).entries.get sessionId = none ∧
        ∀ entry, cache.entries.get sessionId = some entry → entry.loading = false) := by
  induction rounds generalizing cache with
  | zero => exact .inl rfl
  | succ rounds ih =>
      simp only [evict]
      by_cases hsize : cache.entries.size ≤ cache.maxViews
      · rw [if_pos hsize]
        exact .inl rfl
      rw [if_neg hsize]
      cases hfound : cache.oldest active with
      | none => exact .inl rfl
      | some found =>
          simp only []
          have hrest := ih (cache.drop found.1)
          by_cases hself : sessionId = found.1
          · rcases oldest_get hfound with ⟨entry, hentry, hidle⟩
            have hgone : (cache.drop found.1).entries.get sessionId = none := by
              rw [drop, hself, Table.get_erase_self]
            refine .inr ⟨?_, ?_⟩
            · rcases hrest with hrest | hrest
              · rw [hrest, hgone]
              · exact hrest.1
            · intro other hother
              rw [hself, hentry, Option.some.injEq] at hother
              rw [← hother]
              exact hidle
          · have hkept : (cache.drop found.1).entries.get sessionId =
                cache.entries.get sessionId := by
              rw [drop, Table.get_erase_ne _ hself]
            rw [hkept] at hrest
            exact hrest

/-- Trimming forgets an entry that is not loading, or keeps it, its copy cut
    back unless it is on screen. -/
theorem trim_get (cache : TranscriptCache) (active sessionId : Text) :
    ((cache.trim active).entries.get sessionId = none ∧
      ∀ entry, cache.entries.get sessionId = some entry → entry.loading = false) ∨
    ∃ entry used, cache.entries.get sessionId = some entry ∧
      (cache.trim active).entries.get sessionId =
        some { (if sessionId = active then entry else cutBack cache.keepBlocks entry) with
          used := used } := by
  have hkeep : (cache.touch active).keepBlocks = cache.keepBlocks := by
    unfold touch
    cases cache.entries.get active <;> rfl
  -- Touching marks one entry used, cutting back leaves the active one alone.
  have htouch : (cache.touch active).entries.get sessionId =
      (cache.entries.get sessionId).map fun entry =>
        if sessionId = active then { entry with used := cache.clock + 1 } else entry := by
    unfold touch
    by_cases hself : sessionId = active
    · subst hself
      cases hget : cache.entries.get sessionId with
      | none => exact hget
      | some entry => simp
    · cases cache.entries.get active with
      | none => simp [hself]
      | some entry => simp [hself]
  have hcut : ((cache.touch active).cutOthers active).entries.get sessionId =
      ((cache.touch active).entries.get sessionId).map fun entry =>
        if sessionId = active then entry else cutBack cache.keepBlocks entry := by
    unfold cutOthers
    rw [hkeep]
    exact Table.get_mapValues _ _ _
  cases hentry : cache.entries.get sessionId with
  | none =>
      refine .inl ⟨?_, by simp⟩
      rcases evict_get active sessionId ((cache.touch active).cutOthers active).entries.size
        ((cache.touch active).cutOthers active) with hrest | hrest
      · unfold trim
        rw [hrest, hcut, htouch, hentry]
        rfl
      · exact hrest.1
  | some entry =>
      rw [hentry] at htouch
      rw [htouch] at hcut
      -- Eviction then keeps an entry as it is, or drops one that was not loading.
      rcases evict_get active sessionId ((cache.touch active).cutOthers active).entries.size
        ((cache.touch active).cutOthers active) with hrest | hrest
      · refine .inr ⟨entry, if sessionId = active then cache.clock + 1
          else (cutBack cache.keepBlocks entry).used, rfl, ?_⟩
        unfold trim
        rw [hrest, hcut]
        by_cases hself : sessionId = active
        · simp [hself]
        · simp [hself]
      · refine .inl ⟨hrest.1, ?_⟩
        intro other hother
        rw [Option.some.injEq] at hother
        rw [← hother]
        have hidle := hrest.2 _ hcut
        by_cases hself : sessionId = active
        · simpa [hself] using hidle
        · simp only [hself, if_false] at hidle
          rw [← hidle, (cutBack_load cache.keepBlocks entry).1]

theorem entry_get_ne (cache : TranscriptCache) {sessionId other : Text} (h : sessionId ≠ other) :
    (cache.entry other).2.entries.get sessionId = cache.entries.get sessionId := by
  unfold entry
  cases cache.entries.get other with
  | none => simp [h]
  | some found => rfl

end TranscriptCache

end Transcript

end CopilotFleet
