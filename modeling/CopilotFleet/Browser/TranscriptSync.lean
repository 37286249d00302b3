import CopilotFleet.Browser.TranscriptCache
import CopilotFleet.Lib.Run

/-!
# Browser Copies against the Host

One session's projection on the Host and one browser's copy of it, with what
is on its way between them. Updates are delivered in order. Pages are answered
from the projection as it stands at that moment and may be delivered at any
later one, the newest page one request at a time and older pages in any number
and order. Calls about other sessions may come in between, and so may trims.

The copy agrees with the Host once every update has been delivered
(`copies_agree`), on one condition: no older page is delivered after an update
it does not include has already passed over one of the blocks it brings. Such
an update was ignored when it came, on the ground that fetching the block
later would return the current version, but the fetch had been answered
already. `stale_page_stays` is the shortest run where that happens, and
nothing in it asks for a resync.

While a newest page is outstanding, delivered updates wait for it, so the
comparison is made when none is.

## Main definitions

* `Sync`: The projection, the copy and what is between them.
* `Op`: What may happen next.
* `Timely`: An older page has not been overtaken when it is delivered.
* `InStep`: What every timely run keeps.

## Theorems

* `event_inStep`, `deliver_inStep`, `receive_inStep`, `receiveOlder_inStep`: One step each.
* `run_inStep`: Every timely run keeps the copy in step.
* `copies_agree`: The copy agrees once everything is delivered.
* `stale_page_stays`: An overtaken page leaves a stale block behind.
-/

namespace CopilotFleet

namespace Transcript

open Utf16

/-- A session's projection, a browser's copies, and what is on its way. -/
structure Sync where
  host : Projection
  published : List TranscriptUpdate
  delivered : Nat
  cache : TranscriptCache
  /-- The outstanding request for the newest page, and its answer. -/
  newest : Option (Option TranscriptPage)
  /-- Answered older pages still on their way. -/
  older : List TranscriptPage
  /-- Some call has answered `resync` or `false`. -/
  refused : Bool

/-- A call about some other session. -/
inductive OtherCall where
  | begin
  | cancel
  | receive (page : TranscriptPage)
  | receiveOlder (page : TranscriptPage)
  | apply (update : TranscriptUpdate)
  | drop

def OtherCall.run (cache : TranscriptCache) (sessionId : Text) : OtherCall → TranscriptCache
  | .begin => cache.begin sessionId
  | .cancel => cache.cancel sessionId
  | .receive page => (cache.receive sessionId page).2
  | .receiveOlder page => (cache.receiveOlder sessionId page).2
  | .apply update => (cache.apply sessionId update).2
  | .drop => cache.drop sessionId

inductive Op where
  | event (event : SessionEvent)
  | deliver
  | begin
  | answer (limit : Option Nat)
  | receive
  | answerOlder (before : Nat) (limit : Option Nat)
  | receiveOlder (i : Nat)
  | trim (active : Text)
  | elsewhere (sessionId : Text) (call : OtherCall)

namespace Sync

variable (parseFleetControl : Text → Option FleetControl) (sessionId : Text)

/-- A projection built from the stored events, and a browser that knows
    nothing yet. -/
def start (maxViews keepBlocks : Nat) (generation : Text) (events : List SessionEvent) : Sync :=
  { host := Projection.build parseFleetControl generation events
    published := []
    delivered := 0
    cache := { maxViews, keepBlocks, entries := Table.empty, clock := 0 }
    newest := none
    older := []
    refused := false }

def step (w : Sync) : Op → Sync
  | .event event =>
      let advanced := w.host.advance parseFleetControl event
      { w with host := advanced.2, published := w.published ++ advanced.1.toList }
  | .deliver =>
      match w.published[w.delivered]? with
      | none => w
      | some update =>
          let applied := w.cache.apply sessionId update
          { w with
            delivered := w.delivered + 1
            cache := applied.2
            refused := w.refused || applied.1 == .resync }
  -- A session already being loaded is not requested a second time.
  | .begin =>
      if w.newest.isSome then w
      else { w with cache := w.cache.begin sessionId, newest := some none }
  | .answer limit =>
      match w.newest with
      | some none => { w with newest := some (some (w.host.page none limit)) }
      | _ => w
  | .receive =>
      match w.newest with
      | some (some page) =>
          let received := w.cache.receive sessionId page
          { w with cache := received.2, newest := none, refused := w.refused || !received.1 }
      | _ => w
  | .answerOlder before limit =>
      { w with older := w.older ++ [w.host.page (some before) limit] }
  | .receiveOlder i =>
      match w.older[i]? with
      | none => w
      | some page =>
          let received := w.cache.receiveOlder sessionId page
          { w with
            cache := received.2
            older := w.older.eraseIdx i
            refused := w.refused || !received.1 }
  | .trim active => { w with cache := w.cache.trim active }
  | .elsewhere other call =>
      if other = sessionId then w else { w with cache := call.run w.cache other }

/-- What was published, without its numbering. -/
def changes (w : Sync) : List TranscriptChange := w.published.map (·.change)

/-- An older page that would join on has not been overtaken. -/
def Timely (w : Sync) : Op → Prop
  | .receiveOlder i => w.newest = none → ∀ page view, w.older[i]? = some page →
      w.cache.view sessionId = some view → page.start < view.start →
      view.start ≤ page.start + page.blocks.length → ¬ Overtaken w.changes page view
  | _ => True

/-- The copy while no newest page is outstanding: it follows, and is not behind
    what was delivered. -/
def Settled (generation : Text) (base : List TerminalBlock) (w : Sync) : Prop :=
  ∀ entry, w.cache.entries.get sessionId = some entry → entry.loading = false ∧
    ∀ view, entry.view = some view →
      EntryFollows generation base w.changes entry view ∧ w.delivered ≤ view.revision

/-- The copy while one is: what was delivered since the request waits, and the
    answer includes everything delivered before it. -/
def Waiting (answer : Option TranscriptPage) (w : Sync) : Prop :=
  ∃ entry k, w.cache.entries.get sessionId = some entry ∧ entry.loading = true ∧
    k ≤ w.delivered ∧ entry.buffered = (w.published.take w.delivered).drop k ∧
    ∀ page, answer = some page → k ≤ page.revision

/-- What every timely run keeps. -/
structure InStep (generation : Text) (base : List TerminalBlock) (w : Sync) : Prop where
  generation_eq : w.host.generation = generation
  revision_eq : w.host.revision = w.published.length
  numbered : ∀ k u, w.published[k]? = some u → u.generation = generation ∧ u.revision = k + 1
  consistent : Replica.Consistent blockEdits base w.changes
  blocks_eq : w.host.projector.blocks =
    Replica.version blockEdits base w.changes w.changes.length
  delivered_le : w.delivered ≤ w.published.length
  older : ∀ page ∈ w.older, PageOf generation base w.changes page
  newest : ∀ page, w.newest = some (some page) → PageOf generation base w.changes page ∧
    page.start + page.blocks.length =
      (Replica.version blockEdits base w.changes page.revision).length
  settled : w.newest = none → Settled sessionId generation base w
  waiting : ∀ answer, w.newest = some answer → Waiting sessionId answer w

variable {parseFleetControl sessionId}
variable {generation : Text} {base : List TerminalBlock} {w : Sync}

theorem changes_length (w : Sync) : w.changes.length = w.published.length := by
  simp [changes]

/-- A page of the projection is a page of the document as published. -/
theorem page_of (h : InStep sessionId generation base w) (before limit : Option Nat) :
    PageOf generation base w.changes (w.host.page before limit) := by
  have hrev : (w.host.page before limit).revision = w.changes.length := by
    rw [changes_length, ← h.revision_eq]
    rfl
  refine ⟨h.generation_eq, hrev.le, ?_, ?_⟩
  · rw [hrev, ← h.blocks_eq]
    exact w.host.page_reach before limit
  · intro i hi
    rw [hrev, ← h.blocks_eq]
    exact w.host.page_window before limit hi

theorem start_inStep (maxViews keepBlocks : Nat) (generation : Text) (events : List SessionEvent) :
    InStep sessionId generation (toTerminalBlocks parseFleetControl events)
      (start parseFleetControl maxViews keepBlocks generation events) where
  generation_eq := rfl
  revision_eq := rfl
  numbered k u hu := by simp [start] at hu
  consistent r c hc := by simp [start, changes] at hc
  blocks_eq := rfl
  delivered_le := le_rfl
  older page hpage := by simp [start] at hpage
  newest page hpage := by simp [start] at hpage
  settled _ entry hentry := by simp [start] at hentry
  waiting answer hanswer := by simp [start] at hanswer

/-- Another call that leaves the session's entry, and everything but the cache,
    as it is. -/
theorem InStep.of_same_entry (h : InStep sessionId generation base w) {cache : TranscriptCache}
    (hentry : cache.entries.get sessionId = w.cache.entries.get sessionId) :
    InStep sessionId generation base { w with cache := cache } where
  generation_eq := h.generation_eq
  revision_eq := h.revision_eq
  numbered := h.numbered
  consistent := h.consistent
  blocks_eq := h.blocks_eq
  delivered_le := h.delivered_le
  older := h.older
  newest := h.newest
  settled hnone entry hget := h.settled hnone entry (by rw [← hentry]; exact hget)
  waiting answer hanswer := by
    rcases h.waiting answer hanswer with ⟨entry, k, hget, hrest⟩
    exact ⟨entry, k, by rw [← hget]; exact hentry, hrest⟩

/-- An event the projector shows nothing for changes nothing; any other is
    published under the next revision. -/
theorem event_inStep (h : InStep sessionId generation base w) (event : SessionEvent) :
    InStep sessionId generation base (w.step parseFleetControl sessionId (.event event)) := by
  have hspec := TranscriptProjector.apply_spec parseFleetControl w.host.projector event
  simp only [step, Projection.advance]
  cases hchange : (w.host.projector.apply parseFleetControl event).1 with
  | none =>
      rw [hchange] at hspec
      simp only [Option.toList_none, List.append_nil]
      exact
        { h with
          blocks_eq := hspec.trans h.blocks_eq
          settled := h.settled
          waiting := h.waiting }
  | some change =>
      rw [hchange] at hspec
      rw [h.blocks_eq] at hspec
      -- The new change comes behind all others, so what was read before is as it was.
      have hmore (u : TranscriptUpdate) (hu : u.change = change) :
          (w.published ++ [u]).map (·.change) = w.changes ++ [change] := by
        simp [changes, hu]
      simp only [Option.toList_some]
      refine ⟨h.generation_eq, ?_, ?_, ?_, ?_, ?_, ?_, ?_, ?_, ?_⟩
      · simp [h.revision_eq]
      · intro k u hu
        rcases Nat.lt_or_ge k w.published.length with hk | hk
        · rw [List.getElem?_append_left hk] at hu
          exact h.numbered k u hu
        · rw [List.getElem?_append_right hk, List.getElem?_singleton] at hu
          split at hu
          · rw [Option.some.injEq] at hu
            rw [← hu]
            exact ⟨h.generation_eq, by simp only [h.revision_eq]; omega⟩
          · contradiction
      · unfold changes
        rw [hmore _ rfl]
        exact Replica.consistent_append blockEdits h.consistent hspec.1
      · unfold changes
        rw [hmore _ rfl, hspec.2, List.length_append, List.length_singleton,
          Replica.version_succ blockEdits base (c := change) (by simp),
          Replica.version_append blockEdits base w.changes [change] le_rfl]
      · have hle := h.delivered_le
        simp only [List.length_append]
        omega
      · intro page hpage
        unfold changes
        rw [hmore _ rfl]
        exact (h.older page hpage).more change
      · intro page hpage
        unfold changes
        rw [hmore _ rfl, Replica.version_append blockEdits base w.changes [change]
          (h.newest page hpage).1.revision_le]
        exact ⟨(h.newest page hpage).1.more change, (h.newest page hpage).2⟩
      · intro hnone entry hentry
        refine ⟨(h.settled hnone entry hentry).1, ?_⟩
        intro view hview
        have hold := (h.settled hnone entry hentry).2 view hview
        unfold changes
        rw [hmore _ rfl]
        exact ⟨⟨hold.1.1, hold.1.2.1, hold.1.2.2.more change⟩, hold.2⟩
      · intro answer hanswer
        rcases h.waiting answer hanswer with ⟨entry, k, hget, hloading, hk, hbuffered, hpage⟩
        refine ⟨entry, k, hget, hloading, hk, ?_, hpage⟩
        rw [hbuffered]
        simp only []
        rw [List.take_append_of_le_length h.delivered_le]

/-- A published update is the change of its own revision. -/
theorem published_change {k : Nat} {u : TranscriptUpdate} (hu : w.published[k]? = some u) :
    w.changes[k]? = some u.change := by
  unfold changes
  rw [List.getElem?_map, hu]
  rfl

/-- A delivered update is followed, or waits with the others for a newest page. -/
theorem deliver_inStep (h : InStep sessionId generation base w) :
    InStep sessionId generation base (w.step parseFleetControl sessionId .deliver) := by
  simp only [step]
  cases hu : w.published[w.delivered]? with
  | none => exact h
  | some update =>
      have hlt : w.delivered < w.published.length := (List.getElem?_eq_some_iff.mp hu).1
      have hnum := h.numbered _ _ hu
      simp only []
      refine ⟨h.generation_eq, h.revision_eq, h.numbered, h.consistent, h.blocks_eq, hlt, h.older,
        h.newest, ?_, ?_⟩
      · intro hnone entry hentry
        unfold TranscriptCache.apply at hentry
        cases hget : w.cache.entries.get sessionId with
        | none =>
            rw [hget] at hentry
            simp only [hget] at hentry
            contradiction
        | some old =>
            have hold := h.settled hnone old hget
            simp only [hget, hold.1, Bool.false_eq_true, if_false, Table.get_set_self,
              Option.some.injEq] at hentry
            subst hentry
            cases hview : old.view with
            | none =>
                have hsame : (applyTo old update).2 = old := by
                  unfold applyTo
                  rw [hview]
                rw [hsame]
                exact ⟨hold.1, fun view hv => absurd hv (by rw [hview]; simp)⟩
            | some view =>
                have hfollows := hold.2 view hview
                -- The copy was in step, so this is the next revision for it.
                rcases applyTo_follows h.consistent hfollows.1 hnum.1 hnum.2
                  (published_change hu) hfollows.2 with
                  ⟨_, hloading, _, view', hview', hrev, _⟩
                refine ⟨hloading.trans hold.1, ?_⟩
                intro view'' hv
                have hveq : view' = view'' := by
                  rw [hview'.1, Option.some.injEq] at hv
                  exact hv
                rw [← hveq]
                exact ⟨hview', hrev⟩
      · intro answer hanswer
        rcases h.waiting answer hanswer with ⟨entry, k, hget, hloading, hk, hbuffered, hpage⟩
        refine ⟨{ entry with buffered := entry.buffered ++ [update] }, k, ?_, hloading,
          by simp only []; omega, ?_, hpage⟩
        · simp [TranscriptCache.apply, hget, hloading]
        · simp only [hbuffered]
          rw [List.take_add_one, hu, List.drop_append_of_le_length]
          · rfl
          · rw [List.length_take]
            omega

/-- From here on updates wait: so far there is none. -/
theorem begin_inStep (h : InStep sessionId generation base w) :
    InStep sessionId generation base (w.step parseFleetControl sessionId .begin) := by
  simp only [step]
  cases hnewest : w.newest with
  | some answer => exact h
  | none =>
      simp only [Option.isSome_none, Bool.false_eq_true, if_false]
      refine ⟨h.generation_eq, h.revision_eq, h.numbered, h.consistent, h.blocks_eq,
        h.delivered_le, h.older, ?_, ?_, ?_⟩
      · intro page hpage
        simp at hpage
      · intro hnone
        simp at hnone
      · intro answer hanswer
        simp only [Option.some.injEq] at hanswer
        subst hanswer
        refine ⟨{ (w.cache.entry sessionId).1 with loading := true, buffered := [] }, w.delivered,
          ?_, rfl, le_rfl, ?_, by simp⟩
        · simp [TranscriptCache.begin]
        · simp

/-- The page is read as the projection stands, after all that has been delivered. -/
theorem answer_inStep (h : InStep sessionId generation base w) (limit : Option Nat) :
    InStep sessionId generation base (w.step parseFleetControl sessionId (.answer limit)) := by
  simp only [step]
  split
  · rename_i hnewest
    have hpage := page_of h none limit
    have hlast := w.host.page_newest limit
    refine ⟨h.generation_eq, h.revision_eq, h.numbered, h.consistent, h.blocks_eq,
      h.delivered_le, h.older, ?_, ?_, ?_⟩
    · intro page heq
      simp only [Option.some.injEq] at heq
      subst heq
      refine ⟨hpage, ?_⟩
      have hrev : (w.host.page none limit).revision = w.changes.length := by
        rw [changes_length, ← h.revision_eq]
        rfl
      change _ = (Replica.version blockEdits base w.changes _).length
      rw [hrev, ← h.blocks_eq, hlast.1, List.length_drop]
      have hle := hlast.2
      omega
    · intro hnone
      simp at hnone
    · intro answer hanswer
      simp only [Option.some.injEq] at hanswer
      subst hanswer
      rcases h.waiting none hnewest with ⟨entry, k, hget, hloading, hk, hbuffered, _⟩
      refine ⟨entry, k, hget, hloading, hk, hbuffered, ?_⟩
      intro page heq
      rw [Option.some.injEq] at heq
      rw [← heq]
      have hle := h.delivered_le
      change k ≤ w.host.revision
      rw [h.revision_eq]
      omega
  · exact h

/-- The newest page replaces the copy, and what waited for it is followed. -/
theorem receive_inStep (h : InStep sessionId generation base w) :
    InStep sessionId generation base (w.step parseFleetControl sessionId .receive) := by
  simp only [step]
  split
  · rename_i page hnewest
    rcases h.newest page hnewest with ⟨hpage, hreach⟩
    rcases h.waiting (some page) hnewest with ⟨entry, k, hget, _, hk, hbuffered, hafter⟩
    refine ⟨h.generation_eq, h.revision_eq, h.numbered, h.consistent, h.blocks_eq,
      h.delivered_le, h.older, by simp, ?_, by simp⟩
    intro _ entry' hentry'
    have hfound : w.cache.entry sessionId = (entry, w.cache) := by
      unfold TranscriptCache.entry
      rw [hget]
    simp only [TranscriptCache.receive, hfound, Table.get_set_self, Option.some.injEq] at hentry'
    subst hentry'
    -- What waited are the updates since the page was asked for; those the page has are passed over.
    have hcaught := applyAll_follows generation h.consistent entry.buffered k
      ({ entry with
        loading := false
        buffered := []
        view := some
          { generation := page.generation
            revision := page.revision
            epoch := (entry.view.map (·.epoch)).getD 0 + 1
            start := page.start
            total := page.total
            blocks := page.blocks
            prompts := page.prompts.getD [] }
        stamps := page.blocks.map fun _ => page.revision })
      ⟨rfl, hpage.generation_eq, Replica.Follows.page hpage.revision_le hreach hpage.block_eq⟩
      (by
        intro i u hu
        rw [hbuffered, List.getElem?_drop, List.getElem?_take] at hu
        split at hu
        · have hnum := h.numbered _ _ hu
          exact ⟨hnum.1, hnum.2, published_change hu⟩
        · contradiction)
      (hafter page rfl)
    refine ⟨hcaught.2.1, ?_⟩
    intro view hview
    rcases hcaught.2.2 with ⟨view', hview', hrev⟩
    have hveq : view' = view := by
      rw [hview'.1, Option.some.injEq] at hview
      exact hview
    rw [← hveq]
    refine ⟨hview', ?_⟩
    have hlen : entry.buffered.length = w.delivered - k := by
      rw [hbuffered, List.length_drop, List.length_take, min_eq_left h.delivered_le]
    simp only []
    omega
  · exact h

/-- A timely older page keeps the copy in step. -/
theorem receiveOlder_inStep (h : InStep sessionId generation base w) (i : Nat)
    (htimely : w.Timely sessionId (.receiveOlder i)) :
    InStep sessionId generation base
      (w.step parseFleetControl sessionId (.receiveOlder i)) := by
  simp only [step]
  cases hpage : w.older[i]? with
  | none => exact h
  | some page =>
      have hmem : page ∈ w.older := List.mem_of_getElem? hpage
      have holder : ∀ p ∈ w.older.eraseIdx i, PageOf generation base w.changes p :=
        fun p hp => h.older p (List.mem_of_mem_eraseIdx hp)
      simp only [TranscriptCache.receiveOlder]
      cases hget : w.cache.entries.get sessionId with
      | none =>
          exact { h with older := holder, settled := h.settled, waiting := h.waiting }
      | some entry =>
          cases hview : entry.view with
          | none =>
              simp only [hview]
              exact { h with older := holder, settled := h.settled, waiting := h.waiting }
          | some view =>
              simp only [hview]
              refine ⟨h.generation_eq, h.revision_eq, h.numbered, h.consistent, h.blocks_eq,
                h.delivered_le, holder, h.newest, ?_, ?_⟩
              · intro hnone entry' hentry'
                simp only [Table.get_set_self, Option.some.injEq] at hentry'
                subst hentry'
                have hold := h.settled hnone entry hget
                have hfollows := hold.2 view hview
                rcases joinOlder_follows hfollows.1 (h.older page hmem)
                  (htimely hnone page view hpage
                    (by simp [TranscriptCache.view, hget, hview])) with
                  ⟨hloading, view', hview', hrev⟩
                refine ⟨hloading.trans hold.1, ?_⟩
                intro view'' hv
                have hveq : view' = view'' := by
                  rw [hview'.1, Option.some.injEq] at hv
                  exact hv
                rw [← hveq]
                refine ⟨hview', ?_⟩
                rw [hrev]
                exact hfollows.2
              · intro answer hanswer
                rcases h.waiting answer hanswer with
                  ⟨entry', k, hget', hloading, hk, hbuffered, hafter⟩
                rw [hget, Option.some.injEq] at hget'
                subst hget'
                -- Joining leaves what waits for a page.
                have hjoined : (joinOlder entry view page).2.loading = entry.loading ∧
                    (joinOlder entry view page).2.buffered = entry.buffered := by
                  unfold joinOlder
                  split_ifs <;> exact ⟨rfl, rfl⟩
                exact ⟨(joinOlder entry view page).2, k, by simp, hjoined.1.trans hloading, hk,
                  hjoined.2.trans hbuffered, hafter⟩

/-- A copy that is cut back or dropped is not wrong for it. -/
theorem trim_inStep (h : InStep sessionId generation base w) (active : Text) :
    InStep sessionId generation base (w.step parseFleetControl sessionId (.trim active)) := by
  simp only [step]
  refine ⟨h.generation_eq, h.revision_eq, h.numbered, h.consistent, h.blocks_eq,
    h.delivered_le, h.older, h.newest, ?_, ?_⟩
  · -- With no answer on its way, what is kept is still the Host's copy, cut back at most.
    intro hnone entry' hentry'
    rcases TranscriptCache.trim_get w.cache active sessionId with
      ⟨hgone, _⟩ | ⟨entry, used, hget, hkept⟩
    · rw [hgone] at hentry'
      contradiction
    · rw [hkept, Option.some.injEq] at hentry'
      subst hentry'
      have hold := h.settled hnone entry hget
      by_cases hactive : sessionId = active
      · simp only [hactive, if_true]
        exact ⟨hold.1, hold.2⟩
      · simp only [hactive, if_false]
        refine ⟨?_, ?_⟩
        · rw [← hold.1, (cutBack_load w.cache.keepBlocks entry).1]
        · intro view hview
          cases hv : entry.view with
          | none =>
              have hsame : cutBack w.cache.keepBlocks entry = entry := by
                unfold cutBack
                rw [hv]
              rw [hsame, hv] at hview
              contradiction
          | some old =>
              have hfollows := hold.2 old hv
              rcases cutBack_follows hfollows.1 w.cache.keepBlocks with ⟨view', hview', hrev⟩
              have hveq : view' = view := by
                rw [hview'.1, Option.some.injEq] at hview
                exact hview
              rw [← hveq]
              refine ⟨hview', ?_⟩
              rw [hrev]
              exact hfollows.2
  · -- A session whose answer is on its way is loading, so it is not forgotten.
    intro answer hanswer
    rcases h.waiting answer hanswer with ⟨entry, k, hget, hloading, hk, hbuffered, hafter⟩
    rcases TranscriptCache.trim_get w.cache active sessionId with
      ⟨_, hidle⟩ | ⟨entry', used, hget', hkept⟩
    · rw [hidle entry hget] at hloading
      contradiction
    · rw [hget, Option.some.injEq] at hget'
      subst hget'
      have hcut : (if sessionId = active then entry else
          cutBack w.cache.keepBlocks entry).loading = entry.loading ∧
          (if sessionId = active then entry else
          cutBack w.cache.keepBlocks entry).buffered = entry.buffered := by
        split
        · exact ⟨rfl, rfl⟩
        · exact cutBack_load w.cache.keepBlocks entry
      exact ⟨_, k, hkept, hcut.1.trans hloading, hk, hcut.2.trans hbuffered, hafter⟩

/-- A call about another session leaves this session's entry alone. -/
theorem otherCall_get (cache : TranscriptCache) {other : Text} (h : sessionId ≠ other)
    (call : OtherCall) :
    (call.run cache other).entries.get sessionId = cache.entries.get sessionId := by
  cases call with
  | begin => simp [OtherCall.run, TranscriptCache.begin, h, TranscriptCache.entry_get_ne]
  | cancel =>
      simp only [OtherCall.run, TranscriptCache.cancel]
      cases cache.entries.get other with
      | none => rfl
      | some entry =>
          by_cases hview : entry.view = none
          · simp [hview, h]
          · simp [hview, h]
  | receive page =>
      simp [OtherCall.run, TranscriptCache.receive, h, TranscriptCache.entry_get_ne]
  | receiveOlder page =>
      simp only [OtherCall.run, TranscriptCache.receiveOlder]
      cases cache.entries.get other with
      | none => rfl
      | some entry =>
          cases hview : entry.view with
          | none => simp [hview]
          | some view => simp [hview, h]
  | apply update =>
      simp only [OtherCall.run, TranscriptCache.apply]
      cases cache.entries.get other with
      | none => rfl
      | some entry =>
          cases hloading : entry.loading with
          | true => simp [hloading, h]
          | false => simp [hloading, h]
  | drop => simp [OtherCall.run, TranscriptCache.drop, h]

theorem step_inStep (w : Sync) (op : Op) (h : InStep sessionId generation base w)
    (htimely : w.Timely sessionId op) :
    InStep sessionId generation base (w.step parseFleetControl sessionId op) := by
  cases op with
  | event event => exact event_inStep h event
  | deliver => exact deliver_inStep h
  | begin => exact begin_inStep h
  | answer limit => exact answer_inStep h limit
  | receive => exact receive_inStep h
  | answerOlder before limit =>
      refine { h with older := ?_, settled := h.settled, waiting := h.waiting }
      intro page hpage
      rcases List.mem_append.mp hpage with hpage | hpage
      · exact h.older page hpage
      · rw [List.mem_singleton] at hpage
        rw [hpage]
        exact page_of h (some before) limit
  | receiveOlder i => exact receiveOlder_inStep h i htimely
  | trim active => exact trim_inStep h active
  | elsewhere other call =>
      simp only [step]
      by_cases hself : other = sessionId
      · rw [if_pos hself]
        exact h
      · rw [if_neg hself]
        exact h.of_same_entry (otherCall_get w.cache (Ne.symm hself) call)

/-- Where a run of operations leaves the Host and the browser. -/
def run (parseFleetControl : Text → Option FleetControl) (sessionId : Text)
    (maxViews keepBlocks : Nat) (generation : Text) (events : List SessionEvent)
    (ops : List Op) : Sync :=
  Run.final (step parseFleetControl sessionId)
    (start parseFleetControl maxViews keepBlocks generation events) ops

/-- Every older page of the run is delivered before it is overtaken. -/
def AllTimely (parseFleetControl : Text → Option FleetControl) (sessionId : Text)
    (maxViews keepBlocks : Nat) (generation : Text) (events : List SessionEvent)
    (ops : List Op) : Prop :=
  Run.Admits (step parseFleetControl sessionId) (Timely sessionId)
    (start parseFleetControl maxViews keepBlocks generation events) ops

theorem run_inStep {maxViews keepBlocks : Nat} {generation : Text} {events : List SessionEvent}
    {ops : List Op}
    (h : AllTimely parseFleetControl sessionId maxViews keepBlocks generation events ops) :
    InStep sessionId generation (toTerminalBlocks parseFleetControl events)
      (run parseFleetControl sessionId maxViews keepBlocks generation events ops) :=
  Run.invariant_of_admits _ (Timely sessionId) _ step_inStep ops _
    (start_inStep maxViews keepBlocks generation events) h

/-- Every block the browser holds is the Host's at its position. -/
def Agrees (sessionId : Text) (w : Sync) : Prop :=
  ∀ view, w.cache.view sessionId = some view → ∀ i < view.blocks.length,
    view.blocks[i]? = w.host.projector.blocks[view.start + i]?

/-- In every run whose older pages are timely the browser agrees with the Host
    once every published update has been delivered and no newest page is
    outstanding. -/
theorem copies_agree (parseFleetControl : Text → Option FleetControl) (sessionId : Text)
    (maxViews keepBlocks : Nat) (generation : Text) (events : List SessionEvent) (ops : List Op)
    (htimely : AllTimely parseFleetControl sessionId maxViews keepBlocks generation events ops)
    (hdelivered :
      (run parseFleetControl sessionId maxViews keepBlocks generation events ops).delivered =
        (run parseFleetControl sessionId maxViews keepBlocks generation events
          ops).published.length)
    (hnewest :
      (run parseFleetControl sessionId maxViews keepBlocks generation events ops).newest = none) :
    Agrees sessionId
      (run parseFleetControl sessionId maxViews keepBlocks generation events ops) := by
  have h := run_inStep htimely
  generalize run parseFleetControl sessionId maxViews keepBlocks generation events ops = w at *
  intro view hview i hi
  unfold TranscriptCache.view at hview
  rw [Option.bind_eq_some_iff] at hview
  rcases hview with ⟨entry, hget, hv⟩
  have hsettled := (h.settled hnewest entry hget).2 view hv
  have hlast : view.revision = w.changes.length := by
    have hle := hsettled.1.2.2.revision_le
    have hge := hsettled.2
    simp only [copyOf] at hle
    rw [changes_length] at hle ⊢
    omega
  rw [h.blocks_eq]
  exact hsettled.1.2.2.agrees hlast hi

/-- One block that differs is enough. -/
theorem not_agrees {w : Sync} (h : (w.cache.view sessionId).any (fun view =>
    0 < view.blocks.length && view.blocks[0]? != w.host.projector.blocks[view.start]?) = true) :
    ¬ Agrees sessionId w := by
  intro hagrees
  rw [Option.any_eq_true] at h
  rcases h with ⟨view, hview, hblock⟩
  rw [Bool.and_eq_true, decide_eq_true_eq, bne_iff_ne] at hblock
  exact hblock.2 (hagrees view hview 0 hblock.1)

/-! ### An overtaken page -/

/-- The `i`-th of a row of permission requests. -/
def permissionEvent (i : Nat) : SessionEvent where
  eventId := [0x70]
  sessionId := [0x73]
  sequence := i + 2
  payload := .permission none
  createdAt := []

/-- An update of the one tool call. -/
def toolEvent (sequence : Nat) (status : Text) : SessionEvent where
  eventId := [0x74]
  sessionId := [0x73]
  sequence
  payload := .tool (some { toolCallId := some [0x63], status := some status })
  createdAt := []

/-- One tool call and after it more permission requests than a page holds. -/
def longHistory : List SessionEvent :=
  toolEvent 1 [0x31] :: (List.range 250).map permissionEvent

/-- The newest page is loaded, the page before it is answered, the tool call
    completes, and only then is the older page delivered. -/
def overtakenRun : List Op :=
  [.begin, .answer (some 200), .receive, .answerOlder 51 (some 51),
    .event (toolEvent 252 [0x32]), .deliver, .receiveOlder 0]

theorem stale_page_stays :
    (run (fun _ => none) [0x73] 6 200 [0x67] longHistory overtakenRun).refused = false ∧
    (run (fun _ => none) [0x73] 6 200 [0x67] longHistory overtakenRun).delivered =
      (run (fun _ => none) [0x73] 6 200 [0x67] longHistory overtakenRun).published.length ∧
    (run (fun _ => none) [0x73] 6 200 [0x67] longHistory overtakenRun).newest = none ∧
    ¬ Agrees [0x73] (run (fun _ => none) [0x73] 6 200 [0x67] longHistory overtakenRun) := by
  exact ⟨by decide +kernel, by decide +kernel, by decide +kernel,
    not_agrees (by decide +kernel)⟩

/-- The older page is answered, and before it is delivered something changes elsewhere: one more
    permission is asked for, at the end. The tool call completes afterwards. -/
def timelyRun : List Op :=
  [.begin, .answer (some 200), .receive, .answerOlder 51 (some 51), .event (permissionEvent 250),
    .deliver, .receiveOlder 0, .event (toolEvent 253 [0x32]), .deliver]

theorem timelyRun_timely : AllTimely (fun _ => none) [0x73] 6 200 [0x67] longHistory timelyRun := by
  refine ⟨trivial, trivial, trivial, trivial, trivial, trivial, ?_, trivial, trivial, trivial⟩
  let w := run (fun _ => none) [0x73] 6 200 [0x67] longHistory (timelyRun.take 6)
  have hchanged : w.changes.all (fun c => 251 ≤ c.index) = true := by decide +kernel
  have hheld : (w.cache.view [0x73]).all (fun view => view.start ≤ 251) = true := by
    decide +kernel
  -- What was published lies behind the blocks the page brings.
  rintro - page view - hview - - ⟨k, c, -, -, hc, -, hbelow⟩
  have hc' := of_decide_eq_true (List.all_eq_true.mp hchanged c (List.mem_of_getElem? hc))
  have hview' : w.cache.view [0x73] = some view := hview
  rw [hview', Option.all_some, decide_eq_true_eq] at hheld
  omega

theorem copies_agree_timely :
    (run (fun _ => none) [0x73] 6 200 [0x67] longHistory timelyRun).published.length = 2 ∧
      Agrees [0x73] (run (fun _ => none) [0x73] 6 200 [0x67] longHistory timelyRun) :=
  ⟨by decide +kernel, copies_agree (fun _ => none) [0x73] 6 200 [0x67] longHistory timelyRun
    timelyRun_timely (by decide +kernel) (by decide +kernel)⟩

end Sync

end Transcript

end CopilotFleet
