import CopilotFleet.Lib.Doubles
import CopilotFleet.Usage.Store

/-!
# The Usage Report

A report replays every snapshot in the order in which the counters were read
and turns readings into increments: what a counter has grown by since it was
last read, by whose session, and over what interval. A counter that was never
read before starts from nothing, and its first reading is an opening balance if
nobody can say when that was consumed.

What an increment is does not depend on what is asked. The query decides what is
made of it: which sessions are selected, which window it has to lie in, and the
row it goes to. An increment that only partly lies in the window is in no row
and goes to an account of its own.

Amounts are doubles. A counter is read in whole units, credits in billionths,
and what is added to an amount is added in units too, so that what is off by a
rounding is rounded away again before it can pile up. The accounts of openings
and of what was not allocated are added up without that.

## Main definitions

* `units`, `quantity`: An amount in whole units, and back.
* `Increment`: What a counter grew by.
* `read`: What a reading is, by the readings before it.
* `count`: What a query makes of an increment.
* `report`: The whole report.
-/

namespace CopilotFleet

namespace Usage

open Utf16 Doubles

/-! ### Amounts -/

/-- `Math.round`. -/
def round (value : ℚ) : ℤ := ⌊value + 1 / 2⌋

def units (key : UsageAmountKey) (value : ℚ) : ℚ :=
  if key = .aiCredits then round (rounded (value * 10 ^ 9)) else value

def quantity (key : UsageAmountKey) (value : ℚ) : ℚ :=
  if key = .aiCredits then rounded (value / 10 ^ 9) else value

/-- An amount for each key, where one is known. -/
structure UsageAmounts where
  aiCredits : Option ℚ := none
  totalTokens : Option ℚ := none
  inputTokens : Option ℚ := none
  outputTokens : Option ℚ := none
  cacheReadTokens : Option ℚ := none
  cacheWriteTokens : Option ℚ := none
  reasoningTokens : Option ℚ := none

namespace UsageAmounts

def get (amounts : UsageAmounts) : UsageAmountKey → Option ℚ
  | .aiCredits => amounts.aiCredits
  | .totalTokens => amounts.totalTokens
  | .inputTokens => amounts.inputTokens
  | .outputTokens => amounts.outputTokens
  | .cacheReadTokens => amounts.cacheReadTokens
  | .cacheWriteTokens => amounts.cacheWriteTokens
  | .reasoningTokens => amounts.reasoningTokens

def set (amounts : UsageAmounts) (key : UsageAmountKey) (value : Option ℚ) : UsageAmounts :=
  match key with
  | .aiCredits => { amounts with aiCredits := value }
  | .totalTokens => { amounts with totalTokens := value }
  | .inputTokens => { amounts with inputTokens := value }
  | .outputTokens => { amounts with outputTokens := value }
  | .cacheReadTokens => { amounts with cacheReadTokens := value }
  | .cacheWriteTokens => { amounts with cacheWriteTokens := value }
  | .reasoningTokens => { amounts with reasoningTokens := value }

theorem get_set (amounts : UsageAmounts) (key : UsageAmountKey) (value : Option ℚ)
    (j : UsageAmountKey) :
    (amounts.set key value).get j = if j = key then value else amounts.get j := by
  cases key <;> cases j <;> rfl

/-- What an amount comes to, with nothing where none is known. -/
def amount (amounts : UsageAmounts) (key : UsageAmountKey) : ℚ := (amounts.get key).getD 0

/-- `add`. -/
def add (amounts : UsageAmounts) (key : UsageAmountKey) (value : ℚ) : UsageAmounts :=
  amounts.set key (some (quantity key
    (rounded (units key (amounts.amount key) + units key value))))

end UsageAmounts

/-! ### Queries -/

inductive GroupBy where
  | day
  | machine
  | task
  | session
  deriving DecidableEq

/-- `UsageReportQuery`, with a window that is not empty. -/
structure UsageReportQuery where
  start : Option Int := none
  stop : Option Int := none
  groupBy : GroupBy := .day
  nodeId : Option Text := none
  taskId : Option Text := none
  backend : Option Backend := none
  role : Option Role := none
  ordered : start.all fun a => stop.all fun b => decide (a < b) := by rfl

def UsageReportQuery.allTime (query : UsageReportQuery) : Bool :=
  query.start.isNone && query.stop.isNone

def UsageReportQuery.selects (query : UsageReportQuery) (owner : UsageStreamMetadata) : Bool :=
  query.nodeId.all (· = owner.nodeId) && query.taskId.all (· = owner.taskId) &&
    query.backend.all (· = owner.backend) && query.role.all (· = owner.role)

/-- `at >= from`. -/
def UsageReportQuery.since (query : UsageReportQuery) (time : Int) : Bool :=
  query.start.all (· ≤ time)

/-- `at < to`. -/
def UsageReportQuery.before (query : UsageReportQuery) (time : Int) : Bool :=
  query.stop.all (time < ·)

/-! ### Increments -/

/-- A counter of a Node, and one of its amounts. -/
structure Scope where
  nodeId : Text
  backend : Backend
  counterId : Text
  deriving DecidableEq

structure Stream where
  scope : Scope
  key : UsageAmountKey
  deriving DecidableEq

/-- A counter as it was last read, in units. -/
structure Previous where
  value : ℚ
  time : Int

structure Origin where
  baseline : Bool
  time : Int
  deriving DecidableEq

/-- What a counter grew by, for whom, until when and since when. -/
structure Increment where
  owner : UsageStreamMetadata
  key : UsageAmountKey
  delta : ℚ
  time : Int
  start : Int
  opening : Bool

def LEGACY_CREDIT_BACKFILL_SOURCE : Text := ofString "legacy-credit-backfill-v1"

def HERMES_NATIVE_USAGE_SOURCE : Text := ofString "hermes-native-totals-v2"

def HERMES_LEGACY_USAGE_SOURCE : Text := ofString "hermes-session-totals"

/-- The scope of a Hermes counter by its database. -/
abbrev HermesScope := Text × Text

/-- A snapshot as it is visited, with whose it is. -/
structure Visit where
  nodeId : Text
  owner : UsageStreamMetadata
  sample : SessionAccounting

namespace Visit

variable (visit : Visit)

def importedCredit : Bool := visit.sample.source = LEGACY_CREDIT_BACKFILL_SOURCE

def correctedPrefix : Text := HERMES_NATIVE_USAGE_SOURCE ++ ofString ":"

def correctedHermes : Bool :=
  visit.owner.backend = .hermes && visit.sample.source = HERMES_NATIVE_USAGE_SOURCE &&
    correctedPrefix.isPrefixOf visit.sample.counterId

def hermesScope : HermesScope :=
  (visit.nodeId, visit.sample.counterId.drop correctedPrefix.length)

/-- It is a record nobody can say the meaning of. -/
def isLegacy : Bool :=
  visit.owner.backend = .hermes && visit.sample.source = HERMES_LEGACY_USAGE_SOURCE

def scope : Scope where
  nodeId := visit.nodeId
  backend := visit.owner.backend
  counterId := visit.sample.counterId

def time : Int := visit.sample.observedAt.time

/-- The reading of a key, if it counts at all. -/
def reading (key : UsageAmountKey) : Option ℚ≥0 :=
  if visit.importedCredit ∧ key ≠ .aiCredits then none
  else if visit.owner.backend = .hermes ∧ key = .aiCredits then none
  else visit.sample.amounts.get key

/-- Where a counter starts that is met for the first time. -/
def origin (legacy : List HermesScope) : Origin where
  baseline := visit.sample.baseline = some true ||
    (visit.correctedHermes && legacy.contains visit.hermesScope)
  time :=
    match visit.sample.baseline, visit.sample.startedAt with
    | some true, _ => visit.time
    | _, some startedAt => min visit.time startedAt.time
    | _, none => visit.time

end Visit

/-- What is remembered of the readings before. -/
structure Memory where
  previous : Table Stream Previous := Table.empty
  origins : Table Scope Origin := Table.empty

/-- What a reading comes to. -/
inductive Reading where
  /-- There is none, or it says nothing new. -/
  | nothing
  | regressed
  | increment (increment : Increment)

/-- What the reading of a key comes to, and what is remembered of it. -/
def read (origin : Origin) (visit : Visit) (memory : Memory) (key : UsageAmountKey) :
    Reading × Memory :=
  match visit.reading key with
  | none => (.nothing, memory)
  | some reading =>
      let value := units key reading
      let stream : Stream := { scope := visit.scope, key }
      let before := memory.previous.get stream
      if visit.importedCredit ∧ before.any (value < ·.value) then (.nothing, memory)
      else if before.any fun before => value < before.value ∨ visit.time < before.time then
        (.regressed, memory)
      else
        (.increment {
            owner := visit.owner
            key
            delta := quantity key (rounded (value - (before.map (·.value)).getD 0))
            time := visit.time
            start := (before.map (·.time)).getD origin.time
            opening := visit.importedCredit ||
              (before.isNone && (origin.baseline || visit.sample.baseline = some true)) },
          { memory with previous := memory.previous.set stream { value, time := visit.time } })

/-- The origin of a counter, remembered from its first snapshot on. -/
def originOf (legacy : List HermesScope) (visit : Visit) (memory : Memory) : Origin :=
  (memory.origins.get visit.scope).getD (visit.origin legacy)

def rememberOrigin (legacy : List HermesScope) (visit : Visit) (memory : Memory) : Memory :=
  { memory with
    origins := memory.origins.set visit.scope (originOf legacy visit memory) }

/-! ### What a query makes of them -/

/-- What a row is for. -/
inductive RowKey where
  | machine (nodeId : Text)
  | session (key : SessionKey)
  | task (taskId : Text)
  | opening
  | unallocatedTime
  | day (day : Text)
  deriving DecidableEq

structure UsageReportRow where
  label : Text
  amounts : UsageAmounts := {}
  /-- The sessions that are in it, each once. -/
  sessions : List SessionKey := []
  backend : Option Backend := none
  role : Option Role := none

structure Coverage where
  sessions : Nat := 0
  creditSessions : List SessionKey := []
  tokenSessions : List SessionKey := []
  openingAiCredits : ℚ := 0
  openingTokens : ℚ := 0
  unallocatedAiCredits : ℚ := 0
  unallocatedTokens : ℚ := 0
  regressions : Nat := 0
  lastReportedAt : Option Stamp := none
  correctedHermesScopes : List HermesScope := []

structure Tallied where
  memory : Memory := {}
  totals : UsageAmounts := {}
  rows : Table RowKey UsageReportRow := Table.empty
  coverage : Coverage := {}

/-- `set.add`. -/
def addOnce {α : Type} [DecidableEq α] (x : α) (xs : List α) : List α :=
  if x ∈ xs then xs else xs ++ [x]

variable (day : Int → Text) (query : UsageReportQuery)

/-- The row of an increment, and how it is called. -/
def rowOf (increment : Increment) : RowKey × Text :=
  match query.groupBy with
  | .machine => (.machine increment.owner.nodeId, increment.owner.nodeName)
  | .session => (.session increment.owner.key, increment.owner.sessionName)
  | .task => (.task increment.owner.taskId, increment.owner.taskName)
  | .day =>
      if increment.opening then (.opening, ofString "Opening balances · date unknown")
      else if day increment.start ≠ day increment.time then
        (.unallocatedTime, ofString "Intervals spanning multiple days")
      else (.day (day increment.time), day increment.time)

/-- A row before anything is in it. -/
def freshRow (increment : Increment) : UsageReportRow where
  label := (rowOf day query increment).2
  backend := if query.groupBy = .session then some increment.owner.backend else none
  role := if query.groupBy = .session then some increment.owner.role else none

def UsageReportRow.plus (row : UsageReportRow) (increment : Increment) : UsageReportRow :=
  { row with
    amounts := row.amounts.add increment.key increment.delta
    sessions := addOnce increment.owner.key row.sessions }

/-- `record`. -/
def record (increment : Increment) (rows : Table RowKey UsageReportRow) :
    Table RowKey UsageReportRow :=
  let place := (rowOf day query increment).1
  rows.set place (((rows.get place).getD (freshRow day query increment)).plus increment)

/-- It lies in the window as a whole. -/
def inside (increment : Increment) : Bool :=
  query.since increment.time && query.before increment.time && query.since increment.start

/-- It lies in the window in part. -/
def touches (increment : Increment) : Bool :=
  query.since increment.time && query.before increment.start

/-- The amounts of a coverage, by the key they are of. -/
def addCredits (key : UsageAmountKey) (delta amount : ℚ) : ℚ :=
  if key = .aiCredits then rounded (amount + delta) else amount

def addTokens (key : UsageAmountKey) (delta amount : ℚ) : ℚ :=
  if key = .totalTokens then rounded (amount + delta) else amount

/-- That a session of the selection was read at all, before the end of the window. -/
def notice (increment : Increment) (tallied : Tallied) : Tallied :=
  if query.before increment.time then
    { tallied with
      totals := tallied.totals.set increment.key
        (some (tallied.totals.amount increment.key))
      coverage := { tallied.coverage with
        creditSessions := if increment.key = .aiCredits then
          addOnce increment.owner.key tallied.coverage.creditSessions
          else tallied.coverage.creditSessions
        tokenSessions := if increment.key = .totalTokens then
          addOnce increment.owner.key tallied.coverage.tokenSessions
          else tallied.coverage.tokenSessions } }
  else tallied

/-- The account of the opening balances. -/
def countOpening (increment : Increment) (tallied : Tallied) : Tallied :=
  if increment.opening then
    { tallied with coverage := { tallied.coverage with
        openingAiCredits :=
          addCredits increment.key increment.delta tallied.coverage.openingAiCredits
        openingTokens :=
          addTokens increment.key increment.delta tallied.coverage.openingTokens } }
  else tallied

/-- What is made of an increment of a session that is selected. -/
def count (increment : Increment) (tallied : Tallied) : Tallied :=
  let tallied := countOpening increment (notice query increment tallied)
  if increment.opening && !query.allTime then tallied
  else if increment.opening || inside query increment then
    { tallied with
      totals := tallied.totals.add increment.key increment.delta
      rows := record day query increment tallied.rows }
  else if 0 < increment.delta && touches query increment then
    { tallied with coverage := { tallied.coverage with
        unallocatedAiCredits :=
          addCredits increment.key increment.delta tallied.coverage.unallocatedAiCredits
        unallocatedTokens :=
          addTokens increment.key increment.delta tallied.coverage.unallocatedTokens } }
  else tallied

/-! ### The replay -/

/-- One key of a snapshot, and whether a counter has gone back. -/
def visitKey (origin : Origin) (visit : Visit) (progress : Tallied × Bool)
    (key : UsageAmountKey) : Tallied × Bool :=
  let (reading, memory) := read origin visit progress.1.memory key
  let tallied := { progress.1 with memory }
  match reading with
  | .nothing => (tallied, progress.2)
  | .regressed => (tallied, true)
  | .increment increment =>
      (if query.selects visit.owner then count day query increment tallied else tallied,
        progress.2)

/-- What is noted of a snapshot before its amounts. -/
def noteVisit (visit : Visit) (coverage : Coverage) : Coverage :=
  { coverage with
    correctedHermesScopes :=
      if visit.correctedHermes && visit.sample.amounts.totalTokens.isSome &&
          query.before visit.time then
        addOnce visit.hermesScope coverage.correctedHermesScopes
      else coverage.correctedHermesScopes
    lastReportedAt :=
      if query.selects visit.owner && !visit.importedCredit &&
          coverage.lastReportedAt.all (·.time < visit.time) then some visit.sample.observedAt
      else coverage.lastReportedAt }

def visitSnapshot (legacy : List HermesScope) (tallied : Tallied) (visit : Visit) : Tallied :=
  if visit.isLegacy then tallied
  else
    let origin := originOf legacy visit tallied.memory
    let noted := { tallied with
      memory := rememberOrigin legacy visit tallied.memory
      coverage := noteVisit query visit tallied.coverage }
    let (counted, regressed) :=
      usageAmountKeys.foldl (visitKey day query origin visit) (noted, false)
    if query.selects visit.owner && regressed then
      { counted with coverage := { counted.coverage with
          regressions := counted.coverage.regressions + 1 } }
    else counted

/-- The order of `ORDER BY node_id,observed_at,sequence`. -/
def readBefore (left right : Row) : Bool :=
  if toUtf8 left.nodeId = toUtf8 right.nodeId then
    let leftTime := left.snapshot.accounting.observedAt.time
    let rightTime := right.snapshot.accounting.observedAt.time
    if leftTime = rightTime then left.sequence ≤ right.sequence else leftTime < rightTime
  else textLe left.nodeId right.nodeId

/-- Whose sessions are known, from what is kept and from what there is now. -/
def allMetadata (current : List UsageStreamMetadata) (store : UsageStore) :
    Table SessionKey UsageStreamMetadata :=
  let retained := store.streams.values.foldl (fun t m => t.set m.key m) Table.empty
  current.foldl (fun t m => t.set m.key m) retained

/-- The snapshots in the order they were read in, those of unknown sessions left out. -/
def visits (metadata : Table SessionKey UsageStreamMetadata) (rows : List Row) : List Visit :=
  (rows.mergeSort readBefore).filterMap fun row =>
    (metadata.get row.key).map fun owner =>
      { nodeId := row.nodeId, owner, sample := row.snapshot.accounting }

/-- The Hermes counters that have records of the old kind, and of which sessions. -/
def legacyScopes (metadata : Table SessionKey UsageStreamMetadata) (rows : List Row) :
    List (HermesScope × Row) :=
  (rows.filter fun row =>
      row.snapshot.accounting.source = HERMES_LEGACY_USAGE_SOURCE &&
        (metadata.get row.key).any fun owner => owner.backend = .hermes).map fun row =>
    ((row.nodeId, row.snapshot.accounting.counterId), row)

structure UsageReport where
  totals : UsageAmounts
  rows : List (RowKey × UsageReportRow)
  coverage : Coverage
  legacyHermesSessions : Option Nat
  pendingHermesSessions : Option Nat
  machines : Table Text Text
  tasks : Table Text Text

/-- How rows are compared: `localeCompare` of their keys, or by their tokens. -/
def rowOrder (localeLe : RowKey → RowKey → Bool) (left right : RowKey × UsageReportRow) : Bool :=
  if query.groupBy = .day then localeLe left.1 right.1
  else right.2.amounts.amount .totalTokens ≤ left.2.amounts.amount .totalTokens

/-- The sessions that are selected. -/
def selectedMetadata (all : Table SessionKey UsageStreamMetadata) :
    Table SessionKey UsageStreamMetadata :=
  all.keep fun _ owner => query.selects owner

/-- The old records, which are only looked at for Hermes sessions. -/
def legacyRows (all : Table SessionKey UsageStreamMetadata) (rows : List Row) :
    List (HermesScope × Row) :=
  if (selectedMetadata query all).values.any (·.backend = .hermes) then legacyScopes all rows
  else []

/-- What a report makes of the snapshots. -/
def tally (all : Table SessionKey UsageStreamMetadata) (rows : List Row) : Tallied :=
  let selected := selectedMetadata query all
  (if selected.size = 0 then [] else visits all rows).foldl
    (visitSnapshot day query ((legacyRows query all rows).map (·.1)))
    { coverage := { sessions := selected.size } }

/-- The old records of sessions that are selected, from before the end of the window. -/
def selectedLegacyHermes (all : Table SessionKey UsageStreamMetadata) (rows : List Row) :
    List (HermesScope × Row) :=
  (legacyRows query all rows).filter fun legacy =>
    ((selectedMetadata query all).get legacy.2.key).isSome &&
      query.before legacy.2.snapshot.accounting.observedAt.time

/-- `report`; the names of machines and tasks are not put in order. -/
def report (localeLe : RowKey → RowKey → Bool) (current : List UsageStreamMetadata)
    (store : UsageStore) : UsageReport :=
  let all := allMetadata current store
  let tallied := tally day query all store.snapshots
  let selectedLegacy := selectedLegacyHermes query all store.snapshots
  let pending := selectedLegacy.filter fun legacy =>
    !tallied.coverage.correctedHermesScopes.contains legacy.1
  { totals := tallied.totals
    rows := tallied.rows.entries.mergeSort (rowOrder query localeLe)
    coverage := tallied.coverage
    legacyHermesSessions := if selectedLegacy = [] then none
      else some (selectedLegacy.map (·.2.key)).dedup.length
    pendingHermesSessions := if selectedLegacy = [] then none
      else some (pending.map (·.2.key)).dedup.length
    machines := all.values.foldl (fun t owner => t.set owner.nodeId owner.nodeName) Table.empty
    tasks := all.values.foldl (fun t owner => t.set owner.taskId owner.taskName) Table.empty }

end Usage

end CopilotFleet
