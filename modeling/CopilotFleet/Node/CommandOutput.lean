import CopilotFleet.Lib.Run
import CopilotFleet.Lib.Splice
import CopilotFleet.Lib.Utf16

/-!
# The Output of a Command on a Node

The supervisor of a command writes the command's output to two files, one for
each stream, and the Node follows the files while the command runs. What it
reads it puts into its journal in small pieces, each with the next sequence
number, and an event that the journal has no room for is counted as a gap. The
journal may also fail to take an event; then the rest of the chunk is let go.

When the command has come to rest the Node goes over the files again and puts
the rest into the journal. What the rest is it knows from the bytes the journal
took of each stream, which is how far the first reading came, provided that
nothing was missed on the way.

## Main definitions

* `Journal.output`: The journal takes an event, or fails to.
* `output`: A chunk, piece by piece.
* `recoverRetainedOutput`: The rest of the files.
* `finish`: What the end of a command does to its output.
* `System.step`: The supervisor writes, the Node restarts or finishes the command.
-/

namespace CopilotFleet

namespace CommandOutput

open Utf16

abbrev Bytes := List UInt8

inductive Stream where
  | stdout
  | stderr
deriving DecidableEq

/-! ### The journal -/

/-- `COMMAND_LIMITS` -/
def CommandLimits.outputBytes : Nat := 10 * 1024 * 1024

def CommandLimits.chunkBytes : Nat := 24 * 1024

def CommandLimits.nodeLogBytes : Nat := 128 * 1024 * 1024

/-- `OUTPUT_CHUNK_BYTES` -/
def outputChunkBytes : Nat := min CommandLimits.chunkBytes (8 * 1024)

/-- How many gaps a receipt names. -/
def gapLimit : Nat := 128

structure CommandOutputEvent where
  sequence : Nat
  stream : Stream
  data : Bytes
deriving DecidableEq

structure Gap where
  first : Nat
  last : Nat
deriving DecidableEq

/-- What the journal keeps of one execution's output. -/
structure Journal where
  lastSequence : Nat := 0
  capturedBytes : Nat := 0
  outputBytes : Nat := 0
  gaps : List Gap := []
  /-- The rows of `output`. -/
  rows : List CommandOutputEvent := []
  /-- The rows of `output_offsets`. -/
  outputOffset : Stream → Nat := fun _ => 0
  /-- Every event the journal took, retained or not. -/
  taken : List CommandOutputEvent := []

/-- How one write to the journal goes. -/
structure Write where
  throws : Bool := false
  /-- The bytes of all executions' output before it. -/
  total : Nat := 0

def Gap.extend (sequence : Nat) (gap : Gap) : Gap := { gap with last := sequence }

/-- An event that was not retained: the last gap grows, or there is one more. -/
def addGap (sequence : Nat) (gaps : List Gap) : List Gap :=
  if gaps.getLast?.any fun last => last.last + 1 = sequence then
    gaps.modify (gaps.length - 1) (Gap.extend sequence)
  else if gaps.length < gapLimit then gaps ++ [{ first := sequence, last := sequence }]
  else gaps.modify (gapLimit - 1) (Gap.extend sequence)

def Journal.retains (write : Write) (bytes : Nat) (j : Journal) : Bool :=
  j.outputBytes + bytes ≤ CommandLimits.outputBytes &&
    write.total + bytes ≤ CommandLimits.nodeLogBytes - CommandLimits.outputBytes

/-- The journal takes an event; nothing when it throws. -/
def Journal.output (write : Write) (event : CommandOutputEvent) (j : Journal) : Option Journal :=
  if write.throws then none
  else
    let bytes := event.data.length
    let retain := j.retains write bytes
    some {
      lastSequence := event.sequence
      capturedBytes := j.capturedBytes + bytes
      outputBytes := j.outputBytes + if retain then bytes else 0
      gaps := if retain then j.gaps else addGap event.sequence j.gaps
      rows := if retain then j.rows ++ [event] else j.rows
      outputOffset := fun stream =>
        j.outputOffset stream + if stream = event.stream then bytes else 0
      taken := j.taken ++ [event] }

/-! ### Following the files -/

/-- A chunk in pieces. -/
def pieces (bytes : Bytes) : List Bytes :=
  if bytes = [] then []
  else bytes.take outputChunkBytes :: pieces (bytes.drop outputChunkBytes)
termination_by bytes.length
decreasing_by
  rename_i hbytes
  have hpos : 0 < bytes.length := List.length_pos_iff.mpr hbytes
  have hchunk : 0 < outputChunkBytes := by decide
  rw [List.length_drop]
  omega

/-- The pieces of a chunk, with how their writes go. -/
def attempts (bytes : Bytes) (writes : Nat → Write) : List (Bytes × Write) :=
  (pieces bytes).mapIdx fun index piece => (piece, writes index)

/-- The pieces of a chunk until a write fails; the rest of the chunk is let go. -/
def outputPieces (stream : Stream) : List (Bytes × Write) → Journal → Journal
  | [], j => j
  | (piece, write) :: rest, j =>
      match j.output write { sequence := j.lastSequence + 1, stream, data := piece } with
      | none => j
      | some next => outputPieces stream rest next

/-- A chunk of a stream goes to the journal. -/
def output (stream : Stream) (bytes : Bytes) (writes : Nat → Write) (j : Journal) : Journal :=
  outputPieces stream (attempts bytes writes) j

/-! ### The rest of the files -/

structure Counters where
  bytes : Nat
  retainedBytes : Nat

inductive Ownership where
  | quiescent
  | unknown
deriving DecidableEq

/-- What the supervisor says of a process that ended. -/
structure CommandProcessResult where
  ownership : Ownership
  reason : Text
  outputComplete : Option Bool
  stdout : Option Counters
  stderr : Option Counters

def CommandProcessResult.counters (result : CommandProcessResult) : Stream → Option Counters
  | .stdout => result.stdout
  | .stderr => result.stderr

/-- The supervisor left no receipt of its own, so the files tell their sizes. -/
def CommandProcessResult.missingCounters (result : CommandProcessResult) : Bool :=
  result.reason = ofString "receipt_missing" && result.outputComplete = some false

/-- One turn of reading a file: how much is asked for, and how the write goes. -/
structure Turn where
  size : Nat
  write : Write

/-- An end of a command, with what the platform answers. -/
structure Ending where
  result : CommandProcessResult
  /-- Whether a file is a regular one. -/
  regular : Stream → Bool
  turns : Stream → List Turn
  /-- Whether the record could be saved. -/
  saved : Bool

/-- The files of the attempt; a file that was never written to is not there. -/
abbrev Files := Stream → Option Bytes

def content (files : Files) (stream : Stream) : Bytes := (files stream).getD []

inductive Retained where
  | refused
  | skipped
  | upTo (bytes : Nat)

/-- How much of a file is retained. -/
def retained (ending : Ending) (files : Files) (stream : Stream) : Retained :=
  if ending.result.missingCounters then
    match files stream with
    | none => .skipped
    | some file => if ending.regular stream then .upTo file.length else .refused
  else
    match ending.result.counters stream with
    | none => .skipped
    | some counters => .upTo counters.retainedBytes

/-- Reads a file from an offset on, and whether it came to the end of what is retained. -/
def recoverLoop (stream : Stream) (file : Bytes) (retained : Nat) :
    List Turn → Nat → Journal → Journal × Bool
  | [], offset, j => (j, retained ≤ offset)
  | turn :: rest, offset, j =>
      if retained ≤ offset then (j, true)
      else
        let bytes := (file.drop offset).take
          (min turn.size (min outputChunkBytes (retained - offset)))
        if bytes = [] then (j, false)
        else
          let next := output stream bytes (fun _ => turn.write) j
          if next.outputOffset stream ≠ offset + bytes.length then (next, false)
          else recoverLoop stream file retained rest (offset + bytes.length) next

/-- The rest of one file; nothing in place of the total when it throws. -/
def recoverStream (ending : Ending) (files : Files) (stream : Stream) (totalRetained : Nat)
    (j : Journal) : Journal × Option Nat :=
  match retained ending files stream with
  | .refused => (j, none)
  | .skipped => (j, some totalRetained)
  | .upTo retained =>
      if CommandLimits.outputBytes < totalRetained + retained then (j, none)
      else if retained ≤ j.outputOffset stream then (j, some (totalRetained + retained))
      else
        match files stream with
        | none => (j, none)
        | some file =>
            if !ending.regular stream || file.length < retained then (j, none)
            else
              match recoverLoop stream file retained (ending.turns stream)
                  (j.outputOffset stream) j with
              | (next, true) => (next, some (totalRetained + retained))
              | (next, false) => (next, none)

/-- The rest of both files, and whether nothing was thrown. -/
def recoverRetainedOutput (ending : Ending) (files : Files) (j : Journal) : Journal × Bool :=
  if ending.result.stdout.isNone && ending.result.stderr.isNone &&
      !ending.result.missingCounters then (j, true)
  else if j.outputOffset .stdout + j.outputOffset .stderr ≠ j.capturedBytes then (j, false)
  else
    match recoverStream ending files .stdout 0 j with
    | (j, none) => (j, false)
    | (j, some totalRetained) =>
        match recoverStream ending files .stderr totalRetained j with
        | (j, none) => (j, false)
        | (j, some _) => (j, true)

/-- Whether more was written than the journal took. -/
def incomplete (result : CommandProcessResult) (j : Journal) : Bool :=
  (match result.stdout, result.stderr with
    | some stdout, some stderr => j.capturedBytes < stdout.bytes + stderr.bytes
    | _, _ => false) ||
    result.outputComplete = some false

/-- The gap at the end of incomplete output. -/
def gapAtEnd (sequence : Nat) (gaps : List Gap) : List Gap :=
  if gaps.getLast?.any fun last => last.last + 1 = sequence || gapLimit ≤ gaps.length then
    gaps.modify (gaps.length - 1) (Gap.extend sequence)
  else gaps ++ [{ first := sequence, last := sequence }]

def Journal.closed (result : CommandProcessResult) (j : Journal) : Journal :=
  if incomplete result j then
    { j with
      lastSequence := j.lastSequence + 1
      gaps := gapAtEnd (j.lastSequence + 1) j.gaps }
  else j

/-- The end of a command, and whether nothing was thrown. Quiescence is what lets
    the files be read again; what the journal took stays when the end is not saved. -/
def finish (ending : Ending) (files : Files) (j : Journal) : Journal × Bool :=
  match if ending.result.ownership = .quiescent then recoverRetainedOutput ending files j
      else (j, true) with
  | (j, false) => (j, false)
  | (j, true) => if ending.saved then (j.closed ending.result, true) else (j, false)

/-! ### Runs -/

/-- The journal and the files, and whether the files are being followed. -/
structure System where
  journal : Journal := {}
  files : Files := fun _ => none
  live : Bool := true
  /-- What was put into the journal while the files were followed. -/
  delivered : Stream → Bytes := fun _ => []

inductive Event where
  /-- The supervisor writes a chunk, and the Node reads it if it follows the files. -/
  | native (stream : Stream) (bytes : Bytes) (writes : Nat → Write)
  | restart
  | finish (ending : Ending)

/-- The pieces before the first that the journal fails to take. -/
def deliveredPieces : List (Bytes × Write) → Bytes
  | [] => []
  | (piece, write) :: rest => if write.throws then [] else piece ++ deliveredPieces rest

def append (files : Files) (stream : Stream) (bytes : Bytes) : Files := fun other =>
  if other = stream then some (content files stream ++ bytes) else files other

def System.step (sys : System) : Event → System
  | .native stream bytes writes =>
      if sys.live then
        { sys with
          journal := output stream bytes writes sys.journal
          files := append sys.files stream bytes
          delivered := fun other => sys.delivered other ++
            if other = stream then deliveredPieces (attempts bytes writes) else [] }
      else { sys with files := append sys.files stream bytes }
  | .restart => { sys with live := false }
  | .finish ending =>
      { sys with journal := (CommandOutput.finish ending sys.files sys.journal).1, live := false }

end CommandOutput

end CopilotFleet
