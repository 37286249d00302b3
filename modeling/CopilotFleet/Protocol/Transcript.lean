import CopilotFleet.Lib.Replica
import CopilotFleet.Lib.Utf16
import CopilotFleet.Protocol.States

/-!
# Transcript Projection

The raw event stream of a session folded into transcript blocks, one event at
a time. Streamed text merges into the last block of its kind, a repeated tool
update collapses onto the line that started the call, wherever in the history
that is, and everything else adds a block.

An event changes at most one block, and what it did is published as a
`TranscriptChange`. That the change is the whole of what happened to the
blocks is `apply_spec`: a projector is a document of changes in the sense of
`Replica`, so whoever holds a copy of the blocks can follow.

Payloads are modelled as their schemas read them, so a payload that does not
parse is `none`. Which prompts are Fleet control envelopes is a parameter.

## Main definitions

* `TerminalBlock`: One transcript line.
* `TranscriptChange`: What one event did to the transcript.
* `TranscriptProjector`: The blocks, the prompt marks and the tool index.
* `TranscriptProjector.apply`: Folding one event.
* `changedBlock`: A change applied to a copy of a block.
* `blockEdits`: Transcript changes as edits of a document.

## Theorems

* `apply_spec`: An event either changes nothing or writes its change.
-/

namespace CopilotFleet

namespace Transcript

open Utf16

/-! ### Blocks and events -/

inductive TerminalBlockKind where
  | user
  | agent
  | thought
  | tool
  | permission
  | permissionResult
  | turn
  | state
  | error
  | system
  | wake
  deriving DecidableEq, Repr

structure AttachmentSummary where
  name : Text
  mimeType : Text
  bytes : Nat
  deriving DecidableEq

/-- One transcript line: many raw events fold into one block. -/
structure TerminalBlock where
  key : Text
  kind : TerminalBlockKind
  text : Text
  createdAt : Text
  status : Option Text := none
  toolKind : Option Text := none
  detail : Option Text := none
  body : Option Text := none
  attachments : Option (List AttachmentSummary) := none
  deriving DecidableEq

/-- An operator prompt and where it sits. -/
structure PromptMark where
  key : Text
  index : Nat
  label : Text
  createdAt : Text
  deriving DecidableEq

/-- What one event did to the transcript: grew a block's text, or put one. -/
inductive TranscriptChange where
  | append (index : Nat) (append : Text)
  | block (index : Nat) (block : TerminalBlock)
  deriving DecidableEq

def TranscriptChange.index : TranscriptChange → Nat
  | .append index _ => index
  | .block index _ => index

structure ToolPayload where
  toolCallId : Option Text := none
  title : Option Text := none
  status : Option Text := none
  kind : Option Text := none
  detail : Option Text := none
  response : Option Text := none
  error : Option Text := none
  deriving DecidableEq

structure StatePayload where
  state : Option SessionState
  activity : Option Text
  deriving DecidableEq

structure SystemPayload where
  text : Option Text
  attachments : Option (List AttachmentSummary)
  deriving DecidableEq

/-- What an event carries, as `eventPayload` reads it for the event's own type:
    `none` when the payload is not well formed. -/
inductive SessionEventPayload where
  | state (payload : Option StatePayload)
  | agentText (text : Option (Option Text))
  | agentThought (text : Option (Option Text))
  | tool (payload : Option ToolPayload)
  | permission (title : Option (Option Text))
  | permissionResult (outcome : Option (Option Text))
  | turnComplete (stopReason : Option (Option Text))
  | error (message : Option (Option Text))
  | system (payload : Option SystemPayload)
  | agentSession
  | commands
  | config
  | usage
  deriving DecidableEq

structure SessionEvent where
  eventId : Text
  sessionId : Text
  sequence : Nat
  payload : SessionEventPayload
  createdAt : Text
  deriving DecidableEq

def USER_PREFIX : Text := ofString "User: "

/-- `noisyStates`: already shown by the session header. -/
def noisyState : SessionState → Bool
  | .queued => true
  | .starting => true
  | .running => true
  | .idle => true
  | .cancelling => true
  | _ => false

/-- The word a state travels as. -/
def stateText : SessionState → Text
  | .queued => ofString "queued"
  | .starting => ofString "starting"
  | .running => ofString "running"
  | .idle => ofString "idle"
  | .cancelling => ofString "cancelling"
  | .offline => ofString "offline"
  | .stopped => ofString "stopped"
  | .completed => ofString "completed"
  | .failed => ofString "failed"

/-- `value || fallback`, where the empty string counts as missing. -/
def orElse (value : Option Text) (fallback : Text) : Text :=
  match value with
  | none => fallback
  | some text => if text.isEmpty then fallback else text

/-! ### Prompt labels -/

def PROMPT_LABEL_MAX_LENGTH : Nat := 60

/-- `\s`, which is also what `trim` removes. -/
def isSpace (u : UInt16) : Bool :=
  (0x09 ≤ u.toNat && u.toNat ≤ 0x0D) || u.toNat == 0x20 || u.toNat == 0xA0 || u.toNat == 0x1680 ||
    (0x2000 ≤ u.toNat && u.toNat ≤ 0x200A) || u.toNat == 0x2028 || u.toNat == 0x2029 ||
    u.toNat == 0x202F || u.toNat == 0x205F || u.toNat == 0x3000 || u.toNat == 0xFEFF

/-- `replace(/\s+/g, " ")`, with whether a space has just been written. -/
def collapseSpaces : Bool → Text → Text
  | _, [] => []
  | spaced, u :: rest =>
      if isSpace u then
        if spaced then collapseSpaces true rest else 0x20 :: collapseSpaces true rest
      else u :: collapseSpaces false rest

def trim (s : Text) : Text := ((s.dropWhile isSpace).reverse.dropWhile isSpace).reverse

/-- Long enough to recognise a prompt, short enough not to become a paragraph. -/
def promptLabel (text : Text) : Text :=
  let flattened := trim (collapseSpaces false text)
  if flattened.isEmpty then ofString "Prompt"
  else if PROMPT_LABEL_MAX_LENGTH < flattened.length then
    flattened.take PROMPT_LABEL_MAX_LENGTH ++ [0x2026]
  else flattened

/-! ### The projector -/

/-- A recognised Fleet control envelope. -/
structure FleetControl where
  title : Text
  detail : Text

structure TranscriptProjector where
  blocks : List TerminalBlock
  prompts : List PromptMark
  tools : List (Text × Nat)

namespace TranscriptProjector

def new : TranscriptProjector := { blocks := [], prompts := [], tools := [] }

/-- The mark of a prompt's block. -/
def promptMark (index : Nat) (block : TerminalBlock) : PromptMark :=
  { key := block.key, index, label := promptLabel block.text, createdAt := block.createdAt }

def push (p : TranscriptProjector) (block : TerminalBlock) :
    TranscriptChange × TranscriptProjector :=
  let index := p.blocks.length
  (.block index block,
    { p with
      blocks := p.blocks ++ [block]
      prompts :=
        if block.kind = .user then p.prompts ++ [promptMark index block] else p.prompts })

/-- Text of a streamed kind: onto the last block when it is of that kind. -/
def merge (p : TranscriptProjector) (kind : TerminalBlockKind) (event : SessionEvent)
    (text : Text) : TranscriptChange × TranscriptProjector :=
  let index := p.blocks.length - 1
  match p.blocks.getLast? with
  | some last =>
      if last.kind = kind then
        let append := (if kind = .system then [0x0A] else []) ++ text
        (.append index append,
          { p with blocks := p.blocks.set index { last with text := last.text ++ append } })
      else p.push { key := event.eventId, kind, text, createdAt := event.createdAt }
  | none => p.push { key := event.eventId, kind, text, createdAt := event.createdAt }

/-- A field an update restates, over what the line already had. -/
def restated (field : Text) (previous : Option Text) : Option Text :=
  if field.isEmpty then previous else some field

/-- Only what an update actually restates is taken from it. -/
def toolUpdate (previous : TerminalBlock) (title status kind detail response error : Text) :
    TerminalBlock :=
  { previous with
    text := if title.isEmpty then previous.text else title
    status := restated status previous.status
    toolKind := restated kind previous.toolKind
    detail := restated detail previous.detail
    body := restated error (restated response previous.body) }

/-- Where the line of a tool call is, for the updates that name it. -/
def noteTool (p : TranscriptProjector) (toolCallId : Text) (index : Nat) : TranscriptProjector :=
  { p with tools := if toolCallId.isEmpty then p.tools else (toolCallId, index) :: p.tools }

def applyTool (p : TranscriptProjector) (event : SessionEvent) (payload : Option ToolPayload) :
    Option TranscriptChange × TranscriptProjector :=
  let toolCallId := (payload.bind (·.toolCallId)).getD []
  let status := (payload.bind (·.status)).getD []
  let title := (payload.bind (·.title)).getD []
  let toolKind := (payload.bind (·.kind)).getD []
  let detail := (payload.bind (·.detail)).getD []
  let response := (payload.bind (·.response)).getD []
  let error := (payload.bind (·.error)).getD []
  let existing := if toolCallId.isEmpty then none else p.tools.lookup toolCallId
  match existing.bind fun i => (p.blocks[i]?).map fun b => (i, b) with
  | some (index, previous) =>
      if title.isEmpty && status.isEmpty && toolKind.isEmpty && detail.isEmpty &&
          response.isEmpty && error.isEmpty then (none, p)
      else
        let next := toolUpdate previous title status toolKind detail response error
        (some (.block index next), { p with blocks := p.blocks.set index next })
  | none =>
      let pushed := p.push
        { key := event.eventId
          kind := .tool
          text := if title.isEmpty then ofString "Tool call" else title
          createdAt := event.createdAt
          status := restated status none
          toolKind := restated toolKind none
          detail := restated detail none
          body := restated error (restated response none) }
      (some pushed.1, pushed.2.noteTool toolCallId pushed.1.index)

def applySystem (parseFleetControl : Text → Option FleetControl) (p : TranscriptProjector)
    (event : SessionEvent) (payload : Option SystemPayload) :
    Option TranscriptChange × TranscriptProjector :=
  let text := (payload.bind (·.text)).getD []
  if text.isEmpty then (none, p)
  else if !USER_PREFIX.isPrefixOf text then (p.merge .system event text).map some id
  else
    let prompt := text.drop USER_PREFIX.length
    match parseFleetControl prompt with
    | some control =>
        (p.push
          { key := event.eventId
            kind := .wake
            text := control.title
            createdAt := event.createdAt
            detail := some control.detail
            body := some prompt }).map some id
    | none =>
        (p.push
          { key := event.eventId
            kind := .user
            text := prompt
            createdAt := event.createdAt
            attachments := (payload.bind (·.attachments)).filter (!·.isEmpty) }).map some id

/-- One line for an event that always adds one. -/
def pushLine (p : TranscriptProjector) (event : SessionEvent) (kind : TerminalBlockKind)
    (text : Text) : Option TranscriptChange × TranscriptProjector :=
  (p.push { key := event.eventId, kind, text, createdAt := event.createdAt }).map some id

/-- Fold one event. -/
def apply (parseFleetControl : Text → Option FleetControl) (p : TranscriptProjector)
    (event : SessionEvent) : Option TranscriptChange × TranscriptProjector :=
  match event.payload with
  | .agentText text =>
      let text := (text.getD none).getD []
      if text.isEmpty then (none, p) else (p.merge .agent event text).map some id
  | .agentThought text =>
      let text := (text.getD none).getD []
      if text.isEmpty then (none, p) else (p.merge .thought event text).map some id
  | .tool payload => p.applyTool event payload
  | .state payload =>
      match payload.bind (·.state) with
      | none => (none, p)
      | some state =>
          if noisyState state then (none, p)
          else
            (p.push
              { key := event.eventId
                kind := .state
                text := orElse (payload.bind (·.activity)) (stateText state)
                createdAt := event.createdAt
                status := some (stateText state) }).map some id
  | .system payload => p.applySystem parseFleetControl event payload
  | .permission title =>
      p.pushLine event .permission (orElse (title.getD none) (ofString "Tool permission requested"))
  | .permissionResult outcome =>
      p.pushLine event .permissionResult
        (ofString "Permission " ++ orElse (outcome.getD none) (ofString "resolved"))
  | .turnComplete stopReason =>
      p.pushLine event .turn (orElse (stopReason.getD none) (ofString "end_turn"))
  | .error message =>
      p.pushLine event .error (orElse (message.getD none) (ofString "Unknown error"))
  -- Resume bookkeeping, pickers and usage carry nothing worth showing.
  | .agentSession => (none, p)
  | .commands => (none, p)
  | .config => (none, p)
  | .usage => (none, p)

end TranscriptProjector

/-- The whole transcript at once. -/
def toTerminalBlocks (parseFleetControl : Text → Option FleetControl)
    (events : List SessionEvent) : List TerminalBlock :=
  (events.foldl (fun (p : TranscriptProjector) event => (p.apply parseFleetControl event).2)
    TranscriptProjector.new).blocks

/-- A change applied to someone else's copy of a block. -/
def changedBlock (previous : Option TerminalBlock) : TranscriptChange → Option TerminalBlock
  | .block _ block => some block
  | .append _ append => previous.map fun b => { b with text := b.text ++ append }

/-- Transcript changes as edits of a document of blocks. -/
def blockEdits : Replica.Edits TerminalBlock TranscriptChange where
  index := TranscriptChange.index
  changed := changedBlock

/-! ### What an event does to the blocks -/

/-- The blocks after an event are the blocks its change writes. -/
def Writes (before : List TerminalBlock) (change : Option TranscriptChange)
    (after : List TerminalBlock) : Prop :=
  match change with
  | none => after = before
  | some c => Replica.Fits blockEdits before c ∧ after = Replica.write blockEdits before c

namespace TranscriptProjector

theorem push_writes (p : TranscriptProjector) (block : TerminalBlock) :
    Writes p.blocks (some (p.push block).1) (p.push block).2.blocks := by
  refine ⟨⟨le_rfl, rfl⟩, ?_⟩
  simp [push, Replica.write, blockEdits, TranscriptChange.index, changedBlock]

/-- Replacing a block that is there writes a block change. -/
theorem set_writes {blocks : List TerminalBlock} {index : Nat} {previous : TerminalBlock}
    (h : blocks[index]? = some previous) (next : TerminalBlock) :
    Writes blocks (some (.block index next)) (blocks.set index next) := by
  have hlt : index < blocks.length := (List.getElem?_eq_some_iff.mp h).1
  refine ⟨⟨hlt.le, rfl⟩, ?_⟩
  simp [Replica.write, blockEdits, TranscriptChange.index, changedBlock, hlt]

theorem merge_writes (p : TranscriptProjector) (kind : TerminalBlockKind) (event : SessionEvent)
    (text : Text) :
    Writes p.blocks (some (p.merge kind event text).1) (p.merge kind event text).2.blocks := by
  unfold merge
  cases hlast : p.blocks.getLast? with
  | none => exact push_writes p _
  | some last =>
      by_cases hkind : last.kind = kind
      · simp only [if_pos hkind]
        have hget : p.blocks[p.blocks.length - 1]? = some last := by
          rw [← List.getLast?_eq_getElem?, hlast]
        have hlt : p.blocks.length - 1 < p.blocks.length :=
          (List.getElem?_eq_some_iff.mp hget).1
        refine ⟨⟨hlt.le, ?_⟩, ?_⟩
        · simp [blockEdits, TranscriptChange.index, changedBlock, hget]
        · symm
          refine Replica.write_of_lt blockEdits ?_ (by exact hlt)
          simp [blockEdits, TranscriptChange.index, changedBlock, hget]
      · simp only [if_neg hkind]
        exact push_writes p _

theorem applyTool_writes (p : TranscriptProjector) (event : SessionEvent)
    (payload : Option ToolPayload) :
    Writes p.blocks (p.applyTool event payload).1 (p.applyTool event payload).2.blocks := by
  unfold applyTool
  simp only []
  split
  · rename_i index previous hprevious
    split
    · rfl
    · rw [Option.bind_eq_some_iff] at hprevious
      rcases hprevious with ⟨i, _, hi⟩
      rw [Option.map_eq_some_iff] at hi
      rcases hi with ⟨b, hb, heq⟩
      rw [Prod.mk.injEq] at heq
      rw [heq.1] at hb
      exact set_writes hb _
  · exact push_writes p _

theorem applySystem_writes (parseFleetControl : Text → Option FleetControl)
    (p : TranscriptProjector) (event : SessionEvent) (payload : Option SystemPayload) :
    Writes p.blocks (p.applySystem parseFleetControl event payload).1
      (p.applySystem parseFleetControl event payload).2.blocks := by
  unfold applySystem
  simp only []
  split
  · rfl
  · split
    · exact merge_writes p .system event _
    · split
      · exact push_writes p _
      · exact push_writes p _

/-- An event either leaves the blocks as they were or writes its change. -/
theorem apply_spec (parseFleetControl : Text → Option FleetControl) (p : TranscriptProjector)
    (event : SessionEvent) :
    Writes p.blocks (p.apply parseFleetControl event).1
      (p.apply parseFleetControl event).2.blocks := by
  unfold apply
  cases event.payload with
  | agentText text =>
      simp only []
      split
      · rfl
      · exact merge_writes p .agent event _
  | agentThought text =>
      simp only []
      split
      · rfl
      · exact merge_writes p .thought event _
  | tool payload => exact applyTool_writes p event payload
  | state payload =>
      simp only []
      split
      · rfl
      · split
        · rfl
        · exact push_writes p _
  | system payload => exact applySystem_writes parseFleetControl p event payload
  | permission title => exact push_writes p _
  | permissionResult outcome => exact push_writes p _
  | turnComplete stopReason => exact push_writes p _
  | error message => exact push_writes p _
  | agentSession => rfl
  | commands => rfl
  | config => rfl
  | usage => rfl

end TranscriptProjector

end Transcript

end CopilotFleet
