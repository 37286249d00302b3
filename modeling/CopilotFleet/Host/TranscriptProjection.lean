import CopilotFleet.Protocol.Transcript

/-!
# Host Projections of Transcripts

A session's transcript as the Host keeps it: a projector with a generation
and a revision. Every event that changes a block advances the revision by one
and is published under it, so the updates of one generation are numbered
without a gap. A page is read from the projection as it stands when the
request is answered.

## Main definitions

* `TranscriptUpdate`: A change under its generation and revision.
* `TranscriptPage`: A contiguous run of blocks of one revision.
* `Projection`: A projector under a generation and a revision.
* `Projection.advance`: Folding one event and publishing its change.
* `Projection.page`: Answering a page request.

## Theorems

* `page_window`: A page is a window of the projection's blocks.
* `page_newest`: The newest page ends where the blocks do.
-/

namespace CopilotFleet

namespace Transcript

open Utf16

/-- A change, ordered within one Host projection. -/
structure TranscriptUpdate where
  generation : Text
  revision : Nat
  change : TranscriptChange
  deriving DecidableEq

/-- A contiguous run of blocks, `[start, start + blocks.length)` of `total`. -/
structure TranscriptPage where
  generation : Text
  revision : Nat
  total : Nat
  start : Nat
  blocks : List TerminalBlock
  prompts : Option (List PromptMark)
  deriving DecidableEq

def TRANSCRIPT_PAGE_LIMIT : Nat := 200

def TRANSCRIPT_PAGE_MAX : Nat := 10000

structure Projection where
  generation : Text
  revision : Nat
  projector : TranscriptProjector

namespace Projection

/-- A projection built from the events stored so far. -/
def build (parseFleetControl : Text → Option FleetControl) (generation : Text)
    (events : List SessionEvent) : Projection :=
  { generation
    revision := 0
    projector := events.foldl
      (fun (p : TranscriptProjector) event => (p.apply parseFleetControl event).2)
      TranscriptProjector.new }

/-- Fold one event in order, and say what to publish. -/
def advance (parseFleetControl : Text → Option FleetControl) (p : Projection)
    (event : SessionEvent) : Option TranscriptUpdate × Projection :=
  let folded := p.projector.apply parseFleetControl event
  match folded.1 with
  | none => (none, { p with projector := folded.2 })
  | some change =>
      (some { generation := p.generation, revision := p.revision + 1, change },
        { p with revision := p.revision + 1, projector := folded.2 })

/-- Where a page of `limit` blocks before `last` starts. Less than a quarter of a
    page left above comes with it. -/
def pageStart (last limit : Nat) : Nat :=
  if last - limit < limit / 4 then 0 else last - limit

/-- Blocks `[start, last)` where `last` is `before`, by default the newest. -/
def page (p : Projection) (before limit : Option Nat) : TranscriptPage :=
  let blocks := p.projector.blocks
  let last := min (before.getD blocks.length) blocks.length
  let size := min (max (limit.getD TRANSCRIPT_PAGE_LIMIT) 1) TRANSCRIPT_PAGE_MAX
  let start := pageStart last size
  { generation := p.generation
    revision := p.revision
    total := blocks.length
    start
    blocks := (blocks.take last).drop start
    prompts := if before.isNone then some p.projector.prompts else none }

theorem pageStart_le (last limit : Nat) : pageStart last limit ≤ last := by
  unfold pageStart
  split <;> omega

/-- A page's blocks are the projection's, from its start on. -/
theorem page_window (p : Projection) (before limit : Option Nat) {i : Nat}
    (hi : i < (p.page before limit).blocks.length) :
    p.projector.blocks[(p.page before limit).start + i]? = (p.page before limit).blocks[i]? := by
  simp only [page] at hi ⊢
  rw [List.length_drop, List.length_take] at hi
  rw [List.getElem?_drop, List.getElem?_take_of_lt (by omega)]

theorem page_reach (p : Projection) (before limit : Option Nat) :
    (p.page before limit).start + (p.page before limit).blocks.length ≤
      p.projector.blocks.length := by
  have hle := pageStart_le (min (before.getD p.projector.blocks.length) p.projector.blocks.length)
    (min (max (limit.getD TRANSCRIPT_PAGE_LIMIT) 1) TRANSCRIPT_PAGE_MAX)
  simp only [page, List.length_drop, List.length_take]
  omega

/-- The newest page is everything from its start on. -/
theorem page_newest (p : Projection) (limit : Option Nat) :
    (p.page none limit).blocks = p.projector.blocks.drop (p.page none limit).start ∧
      (p.page none limit).start ≤ p.projector.blocks.length := by
  have hle := pageStart_le p.projector.blocks.length
    (min (max (limit.getD TRANSCRIPT_PAGE_LIMIT) 1) TRANSCRIPT_PAGE_MAX)
  simp only [page, Option.getD_none, min_self, List.take_length]
  exact ⟨trivial, hle⟩

end Projection

end Transcript

end CopilotFleet
