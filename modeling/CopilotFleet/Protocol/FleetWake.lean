import CopilotFleet.Lib.JsonString
import CopilotFleet.Lib.Pattern
import CopilotFleet.Lib.Split

/-!
# Wake Envelopes

The Host wakes an orchestrator with a turn of plain text: a header that names
the task, one bullet for every step that settled with its output under it, and
the steps that are still out. The browser reads the text back to draw one line
of it. Nothing but the shape of the lines tells the two ends apart what is
structure and what is a worker's output.

The writer indents an output to keep it out of the structure, and the reader
trims every line before it looks at it. An output line that looks like a bullet
or a control line is therefore read as one. `wake_survives` says when a wake is
read back as it was written: exactly when no output has such a line, and every
state is one word.

## Main definitions

* `WakeInput`: What a wake reports.
* `wakeEnvelope`: The text of a wake.
* `parseWake`: Reading it back.
* `Quiet`: No output line is read as structure.
* `Survives`: A wake is read back as it was written.

## Theorems

* `exec_header`: The header is read back.
* `exec_settled`: A settled step's bullet is read back.
* `exec_running`: A running step's bullet is read back.
* `wake_survives`: Quiet wakes survive, and of the others none.
* `wake_output_settles`: An output line that is read as a step.
-/

namespace CopilotFleet

namespace FleetWake

open Utf16 JsonString Pattern Split

/-! ### Writing -/

/-- `String` of a natural number. -/
def decimal (n : Nat) : Text := (Nat.toDigits 10 n).map fun c => UInt16.ofNat c.toNat

structure SettledStep where
  title : Text
  category : Text
  state : Text
  output : Text
  sessionId : Text

structure RunningStep where
  title : Text
  category : Text
  sessionId : Text

structure WakeInput where
  runId : Text
  task : Option Text
  phase : Option Text
  phaseNumber : Option Nat
  phaseCount : Option Nat
  isLastPhase : Bool
  wakes : Nat
  maxWakes : Nat
  settled : List SettledStep
  running : List RunningStep
  /-- The caller gives a phase's position whole or not at all. -/
  numbered : phaseCount.isSome → phaseNumber.isSome

/-- A phase is shown when it has a name and there are any. -/
def WakeInput.shownPhase (input : WakeInput) : Option (Text × Nat) :=
  match input.phase, input.phaseCount with
  | some phase, some phaseCount =>
      if phase ≠ [] ∧ phaseCount ≠ 0 then some (phase, phaseCount) else none
  | _, _ => none

/-- `(1/3)`. -/
def WakeInput.positionText (input : WakeInput) (phaseCount : Nat) : Text :=
  ofString "(" ++ (input.phaseNumber.elim (ofString "undefined") decimal ++
    (ofString "/" ++ (decimal phaseCount ++ ofString ")")))

def WakeInput.phaseAttribute (input : WakeInput) : Text :=
  match input.shownPhase with
  | some (phase, phaseCount) =>
      ofString " phase=" ++ (stringify phase ++ (ofString " " ++ input.positionText phaseCount))
  | none => []

/-- `2/12`. -/
def WakeInput.wakesText (input : WakeInput) : Text :=
  decimal input.wakes ++ (ofString "/" ++ decimal input.maxWakes)

def WakeInput.header (input : WakeInput) : Text :=
  ofString "<fleet-wake task=" ++ (stringify (input.task.getD input.runId) ++
    (ofString " taskId=" ++ (stringify input.runId ++ (input.phaseAttribute ++
      (ofString " wakes=" ++ (input.wakesText ++ ofString ">"))))))

/-- What a bullet says of a step behind its title. -/
def worker (category sessionId : Text) : Text :=
  category ++ (ofString ", session " ++ sessionId)

def SettledStep.bullet (step : SettledStep) : Text :=
  ofString "- " ++ (step.title ++ (ofString " (" ++ (worker step.category step.sessionId ++
    (ofString "): " ++ step.state))))

def RunningStep.bullet (step : RunningStep) : Text :=
  ofString "- " ++ (step.title ++ (ofString " (" ++ (worker step.category step.sessionId ++
    ofString ")")))

def SettledStep.outputText (step : SettledStep) : Text :=
  if step.output = [] then ofString "(no output)" else step.output

def SettledStep.lines (step : SettledStep) : List Text :=
  [step.bullet, ofString "  " ++ step.outputText]

def nextMove (input : WakeInput) : List Text :=
  if input.running ≠ [] then
    [ofString "Other work is still out. If this changes nothing, say so briefly and stop."]
  else
    let phase := input.phase.getD []
    if phase = [] then
      [ofString ("Nothing else is running. Use fleet_follow_up for the same deliverable, " ++
        "dispatch distinct work, or report and stop.")]
    else
      [ofString "Nothing else is running in \"" ++ (phase ++
          ofString "\". Judge what came back — read the"),
        ofString "transcript if the summary is not enough to tell.",
        ofString ("If the same worker needs another revision, use fleet_follow_up with its " ++
          "session ID rather than starting a new session."),
        if input.isLastPhase then
          ofString ("Only when all essential whole-task criteria are met with evidence, call " ++
            "fleet_submit_task to hand the task to the person. A published slice alone does " ++
            "not complete the parent; record partial results and dispatch what is missing.")
        else
          ofString ("If the phase is done, call fleet_advance_task. If not, dispatch what is " ++
            "missing.")]

def WakeInput.runningLines (input : WakeInput) : List Text :=
  if input.running ≠ [] then
    ofString "Still running:" :: input.running.map RunningStep.bullet
  else []

def maintenanceLine : Text :=
  ofString ("Read fleet_get_pr_maintenance on this wake: the registry is authoritative. " ++
    "Reconcile accepted batches/effects before a new exact prepared follow-up. Maintenance " ++
    "holds override reopening/advancement advice; readiness is not task approval. Use the " ++
    "packaged pr-maintenance skill, inspect due active PRs within persisted budgets, and " ++
    "never merge.")

/-- What stands below the header, down to the closing tag and beyond it. -/
def WakeInput.body (input : WakeInput) : List Text :=
  ofString "Just finished:" :: (input.settled.flatMap SettledStep.lines ++ (input.runningLines ++
    (ofString "</fleet-wake>" :: [] :: maintenanceLine :: [] :: nextMove input)))

def newline : UInt16 := 0x0A

/-- The envelope a woken orchestrator reads. -/
def wakeEnvelope (input : WakeInput) : Text :=
  [newline].intercalate (input.header :: input.body)

/-! ### Reading -/

/-- What `.` does not match. -/
def isLineTerminator (u : UInt16) : Bool := u = 0x0A || u = 0x0D || u = 0x2028 || u = 0x2029

def isDigit (u : UInt16) : Bool := 0x30 ≤ u && u ≤ 0x39

def isParenthesis (u : UInt16) : Bool := u = 0x28 || u = 0x29

def spaces : Pattern UInt16 := plus true (one isSpace)

def optionalSpaces : Pattern UInt16 := star true (one isSpace)

/-- What may stand between two quotes. -/
def quotedUnit : Pattern UInt16 :=
  alt (one fun u => u ≠ quote && u ≠ backslash)
    (seq (lit [backslash]) (one fun u => !isLineTerminator u))

def quoted : Pattern UInt16 := star true quotedUnit

def positionPattern : Pattern UInt16 :=
  all [lit (ofString "("), plus true (one isDigit), lit (ofString "/"), plus true (one isDigit),
    lit (ofString ")")]

/-- Matches the header `wakeEnvelope` writes. -/
def headerPattern : Pattern UInt16 :=
  all [lit (ofString "<fleet-wake"), spaces, lit (ofString "task=\""), group 1 quoted,
    lit [quote],
    maybe (all [spaces, lit (ofString "taskId=\""), quoted, lit [quote]]),
    maybe (all [spaces, lit (ofString "phase=\""), group 2 quoted, lit [quote], optionalSpaces,
      maybe (group 3 positionPattern)]),
    maybe (all [spaces, lit (ofString "wakes="), group 4 (plus false (one fun u => !isSpace u))]),
    lit (ofString ">"), optionalSpaces, finish]

/-- A bullet up to its title. -/
def titlePattern : Pattern UInt16 :=
  group 1 (star false (one fun u => !isLineTerminator u))

/-- What stands in parentheses behind a title. -/
def workerPattern : Pattern UInt16 :=
  maybe (all [lit (ofString "("), group 2 (star true (one fun u => !isParenthesis u)),
    lit (ofString ")")])

def settledPattern : Pattern UInt16 :=
  all [lit (ofString "-"), spaces, titlePattern, optionalSpaces, workerPattern, optionalSpaces,
    lit (ofString ":"), optionalSpaces, group 3 (plus true (one fun u => !isSpace u)),
    optionalSpaces, finish]

def runningPattern : Pattern UInt16 :=
  all [lit (ofString "-"), spaces, titlePattern, optionalSpaces, workerPattern, optionalSpaces,
    finish]

structure SettledSummary where
  title : Text
  state : Text
deriving DecidableEq

structure WakeSummary where
  task : Text
  phase : Text
  wakes : Text
  settled : List SettledSummary := []
  running : List Text := []
deriving DecidableEq

/-- Undoes the `JSON.stringify` the Host used to write the attribute. -/
def unquote (value : Text) : Text := (unescape value).getD value

inductive Section where
  | settled
  | running
deriving DecidableEq

/-- The step a line of the settled section reports. -/
def readSettled (line : Text) : Option SettledSummary :=
  (exec settledPattern line).map fun step =>
    { title := (step.lookup 1).getD [], state := (step.lookup 3).getD [] }

def readRunning (line : Text) : Option Text :=
  (exec runningPattern line).map fun step => (step.lookup 1).getD []

def readLines : Option Section → WakeSummary → List Text → WakeSummary
  | _, summary, [] => summary
  | place, summary, raw :: rest =>
      let line := trim isSpace raw
      if line = ofString "</fleet-wake>" then summary
      else if (ofString "Just finished:").isPrefixOf line then
        readLines (some .settled) summary rest
      else if (ofString "Still running:").isPrefixOf line then
        readLines (some .running) summary rest
      else if (ofString "-").isPrefixOf line then
        match place with
        | none => readLines place summary rest
        | some .settled =>
            readLines place
              { summary with settled := summary.settled ++ (readSettled line).toList } rest
        | some .running =>
            readLines place
              { summary with running := summary.running ++ (readRunning line).toList } rest
      else readLines place summary rest

/-- What the header alone says. -/
def readHeader (header : Captures UInt16) : WakeSummary where
  task := unquote ((header.lookup 1).getD [])
  phase := [0x20].intercalate
    ([unquote ((header.lookup 2).getD []), (header.lookup 3).getD []].filter (· ≠ []))
  wakes := (header.lookup 4).getD []

/-- The wake inside `text`, or nothing when it is an ordinary prompt. -/
def parseWake (text : Text) : Option WakeSummary :=
  match text.splitOn newline with
  | [] => none
  | first :: rest =>
      (exec headerPattern (trim isSpace first)).map fun header =>
        readLines none (readHeader header) rest

/-! ### Numbers and spaces -/

theorem decimal_ne_nil (n : Nat) : decimal n ≠ [] := by
  simp [decimal]

theorem isDigit_decimal {n : Nat} {u : UInt16} (hu : u ∈ decimal n) : isDigit u = true := by
  rcases List.mem_map.mp hu with ⟨c, hc, rfl⟩
  have hdigit := Char.isDigit_iff_toNat.mp (Nat.isDigit_of_mem_toDigits (by decide) (by decide) hc)
  have hlow : 0x30 ≤ c.toNat := hdigit.1
  have hhigh : c.toNat ≤ 0x39 := hdigit.2
  have hnat : (UInt16.ofNat c.toNat).toNat = c.toNat := UInt16.toNat_ofNat_of_lt' (Nat.lt_of_le_of_lt hhigh (by decide))
  unfold isDigit
  simp only [UInt16.le_iff_toNat_le, hnat, Bool.and_eq_true, decide_eq_true_eq]
  exact ⟨hlow, hhigh⟩

theorem isSpace_of_isDigit {u : UInt16} (hu : isDigit u = true) : isSpace u = false := by
  unfold isDigit at hu
  simp only [UInt16.le_iff_toNat_le, Bool.and_eq_true, decide_eq_true_eq] at hu
  have hlow : 0x30 ≤ u.toNat := hu.1
  have hhigh : u.toNat ≤ 0x39 := hu.2
  have hne : ∀ v : UInt16, v.toNat < 0x30 ∨ 0x39 < v.toNat → u ≠ v := by
    rintro v hv rfl
    omega
  unfold isSpace
  simp only [UInt16.le_iff_toNat_le, hne 0x20 (by decide), hne 0xA0 (by decide),
    hne 0x1680 (by decide), hne 0x2028 (by decide), hne 0x2029 (by decide), hne 0x202F (by decide),
    hne 0x205F (by decide), hne 0x3000 (by decide), hne 0xFEFF (by decide), decide_false,
    Bool.or_false, Bool.or_eq_false_iff, Bool.and_eq_false_iff, decide_eq_false_iff_not, not_le]
  constructor
  · right
    exact Nat.lt_of_lt_of_le (by decide) hlow
  · left
    exact Nat.lt_of_le_of_lt hhigh (by decide)

/-- `2/12` has no white space and no angle bracket in it. -/
theorem wakesText_plain (input : WakeInput) {u : UInt16} (hu : u ∈ input.wakesText) :
    isSpace u = false ∧ u ≠ 0x3E := by
  have hdigit : ∀ u, isDigit u = true → isSpace u = false ∧ u ≠ 0x3E := by
    intro u hu
    refine ⟨isSpace_of_isDigit hu, ?_⟩
    rintro rfl
    exact absurd hu (by decide)
  unfold WakeInput.wakesText at hu
  rcases List.mem_append.mp hu with hu | hu
  · exact hdigit u (isDigit_decimal hu)
  · rcases List.mem_append.mp hu with hu | hu
    · have hslash : ∀ u ∈ ofString "/", isSpace u = false ∧ u ≠ 0x3E := by decide
      exact hslash u hu
    · exact hdigit u (isDigit_decimal hu)

theorem startsWith_of_all {text rest : Text} (hne : text ≠ [])
    (h : ∀ u ∈ text, isSpace u = false) : startsWith isSpace (text ++ rest) = false := by
  cases text with
  | nil => exact absurd rfl hne
  | cons u text => exact h u List.mem_cons_self

/-! ### Following the patterns -/

section

variable {c : Continuation UInt16} {r : Captures UInt16} {rest : Text}
  {captures : Captures UInt16}

/-- The first of several patterns, then the others. -/
theorem all_some {a b : Pattern UInt16} {others : List (Pattern UInt16)} {x : Point UInt16}
    (h : run a x (fun y => run (all (b :: others)) y c) = some r) :
    run (all (a :: b :: others)) x c = some r := h

theorem spaces_some {gap : Text} (hgap : ∀ u ∈ gap, isSpace u = true) (hne : gap ≠ [])
    (hrest : startsWith isSpace rest = false) (hc : c { rest, captures } = some r) :
    run spaces { rest := gap ++ rest, captures } c = some r := by
  cases gap with
  | nil => exact absurd rfl hne
  | cons u gap =>
      refine run_plus_one (hgap u List.mem_cons_self)
        (fun v hv => hgap v (List.mem_cons_of_mem u hv)) ?_ hc
      intro v hv
      cases rest with
      | nil => cases hv
      | cons w rest =>
          cases hv
          exact hrest

theorem optionalSpaces_some {gap : Text} (hgap : ∀ u ∈ gap, isSpace u = true)
    (hrest : startsWith isSpace rest = false) (hc : c { rest, captures } = some r) :
    run optionalSpaces { rest := gap ++ rest, captures } c = some r := by
  refine run_greedy_one hgap ?_ hc
  intro v hv
  cases rest with
  | nil => cases hv
  | cons w rest =>
      cases hv
      exact hrest

theorem finish_some (hc : c { rest := [], captures } = some r) :
    run finish { rest := [], captures } c = some r := by
  unfold run
  rw [if_pos rfl, hc]

theorem plain_ne {u : UInt16} (h : plain u = true) : u ≠ quote ∧ u ≠ backslash := by
  constructor
  · rintro rfl
    exact absurd h (by decide)
  · rintro rfl
    exact absurd h (by decide)

theorem eats_quotedUnit {w : Text} (h : Chunk w) : w ≠ [] ∧ Eats quotedUnit w := by
  rcases h with ⟨u, rfl, hu⟩ | ⟨letter, rfl, hlow, hhigh⟩
  · have hne := plain_ne hu
    refine ⟨List.cons_ne_nil u [], ?_⟩
    intro rest captures c
    have hlit : [backslash].isPrefixOf (u :: rest) = false := by
      simp [List.isPrefixOf, hne.2.symm]
    simp [quotedUnit, run, hne.1, hne.2, hlit]
  · refine ⟨List.cons_ne_nil _ _, ?_⟩
    intro rest captures c
    have hletter : isLineTerminator letter = false := by
      have hlow' := UInt16.lt_iff_toNat_lt.mp hlow
      have hhigh' := UInt16.lt_iff_toNat_lt.mp hhigh
      have hne : ∀ v : UInt16, v.toNat ≤ 0x20 ∨ 0x80 ≤ v.toNat → letter ≠ v := by
        rintro v hv rfl
        rcases hv with hv | hv
        · exact absurd hlow' (Nat.not_lt.mpr hv)
        · exact absurd hhigh' (Nat.not_lt.mpr hv)
      unfold isLineTerminator
      simp only [hne 0x0A (by decide), hne 0x0D (by decide), hne 0x2028 (by decide),
        hne 0x2029 (by decide), decide_false, Bool.or_self]
    simp [quotedUnit, run, hletter]

/-- What was written between two quotes is what a quoted string takes. -/
theorem quoted_some (text : Text) (hc : c { rest := quote :: rest, captures } = some r) :
    run quoted { rest := escape text ++ quote :: rest, captures } c = some r := by
  rcases escape_chunks text with ⟨ws, hws, hchunks⟩
  rw [← hws]
  refine run_greedy (fun w hw => eats_quotedUnit (hchunks w hw)) ?_ hc
  intro c
  have hlit : [backslash].isPrefixOf (quote :: rest) = false := by
    simp [List.isPrefixOf, quote, backslash]
  simp [quotedUnit, run, hlit]

theorem quote_some (hc : c { rest, captures } = some r) :
    run (lit [quote]) { rest := quote :: rest, captures } c = some r := lit_some hc

theorem digits_some (n : Nat) (hrest : ∀ u, rest.head? = some u → isDigit u = false)
    (hc : c { rest, captures } = some r) :
    run (plus true (one isDigit)) { rest := decimal n ++ rest, captures } c = some r := by
  cases hdecimal : decimal n with
  | nil => exact absurd hdecimal (decimal_ne_nil n)
  | cons u text =>
      have hdigit : ∀ v ∈ u :: text, isDigit v = true := fun v hv =>
        isDigit_decimal (hdecimal ▸ hv)
      exact run_plus_one (hdigit u List.mem_cons_self)
        (fun v hv => hdigit v (List.mem_cons_of_mem u hv)) hrest hc

/-- A lazy word is captured up to the closing bracket. -/
theorem word_some {w : Text} {n : Nat} {others : List (Pattern UInt16)} (hne : w ≠ [])
    (hw : ∀ u ∈ w, isSpace u = false ∧ u ≠ 0x3E)
    (hc : run (all (lit (ofString ">") :: others))
      { rest := ofString ">" ++ rest, captures := (n, w) :: captures } c = some r) :
    run (group n (plus false (one fun u => !isSpace u)))
      { rest := w ++ (ofString ">" ++ rest), captures }
      (fun y => run (all (lit (ofString ">") :: others)) y c) = some r := by
  have hword : ∀ u ∈ w, (fun u => !isSpace u) u = true := by
    intro u hu
    simp [(hw u hu).1]
  cases w with
  | nil => exact absurd rfl hne
  | cons u w =>
      refine group_lazy_plus (hword u List.mem_cons_self)
        (fun v hv => hword v (List.mem_cons_of_mem u hv)) ?_ hc
      intro v t cs hsuffix
      have hv : v ∈ u :: w := List.mem_cons_of_mem u (hsuffix.subset List.mem_cons_self)
      have hlit : ∀ c : Continuation UInt16, run (lit (ofString ">"))
          { rest := v :: t ++ (ofString ">" ++ rest), captures := cs } c = none := by
        intro c
        refine lit_none ?_
        change List.isPrefixOf [0x3E] (v :: _) = false
        simp [List.isPrefixOf, (hw v hv).2.symm]
      cases others with
      | nil => exact hlit c
      | cons a others => exact hlit fun y => run (all (a :: others)) y c

end

/-! ### The header -/

section

variable (input : WakeInput) {captures : Captures UInt16}

/-- What the header pattern captures of a phase. -/
def WakeInput.phaseCaptures (input : WakeInput) : Captures UInt16 :=
  match input.shownPhase with
  | some (phase, phaseCount) => [(3, input.positionText phaseCount), (2, escape phase)]
  | none => []

/-- The end of the header, from the wake budget on. -/
theorem wakes_some :
    run (all [maybe (all [spaces, lit (ofString "wakes="),
        group 4 (plus false (one fun u => !isSpace u))]), lit (ofString ">"), optionalSpaces,
        finish])
      { rest := ofString " wakes=" ++ (input.wakesText ++ ofString ">"), captures }
      (fun y => some y.captures) = some ((4, input.wakesText) :: captures) := by
  have hliteral : ofString " wakes=" ++ (input.wakesText ++ ofString ">") =
      [0x20] ++ (ofString "wakes=" ++ (input.wakesText ++ (ofString ">" ++ ([] ++ [])))) := by
    rw [← List.append_assoc, List.append_nil, List.append_nil]
    rfl
  have hne : input.wakesText ≠ [] := by
    simp [WakeInput.wakesText, decimal_ne_nil]
  rw [hliteral]
  refine all_some (maybe_some (all_some (spaces_some (by decide) (by decide) rfl
    (all_some (lit_some ?_)))))
  refine word_some hne (fun u hu => wakesText_plain input hu) ?_
  exact all_some (lit_some (all_some (optionalSpaces_some (by simp) rfl (finish_some rfl))))

theorem phaseNumber_of_shown {phase : Text} {phaseCount : Nat}
    (h : input.shownPhase = some (phase, phaseCount)) :
    phase ≠ [] ∧ ∃ phaseNumber, input.phaseNumber = some phaseNumber := by
  unfold WakeInput.shownPhase at h
  split at h
  · rename_i phase' phaseCount' hphase hcount
    split at h
    · rename_i hshown
      cases h
      exact ⟨hshown.1, Option.isSome_iff_exists.mp (input.numbered (by rw [hcount]; rfl))⟩
    · cases h
  · cases h

/-- The position is captured up to its closing parenthesis. -/
theorem position_some {phase : Text} {phaseCount : Nat} {rest : Text}
    {c : Continuation UInt16} {r : Captures UInt16}
    (h : input.shownPhase = some (phase, phaseCount))
    (hc : c { rest, captures := (3, input.positionText phaseCount) :: captures } = some r) :
    run (group 3 positionPattern)
      { rest := input.positionText phaseCount ++ rest, captures } c = some r := by
  refine group_some ?_ hc
  intro c hc
  rcases (phaseNumber_of_shown input h).2 with ⟨phaseNumber, hnumber⟩
  unfold WakeInput.positionText positionPattern
  rw [hnumber, Option.elim_some]
  simp only [List.append_assoc]
  refine all_some (lit_some (all_some (digits_some phaseNumber ?_ (all_some (lit_some
    (all_some (digits_some phaseCount ?_ (lit_some hc))))))))
  · intro u hu
    cases hu
    rfl
  · intro u hu
    cases hu
    rfl

/-- The header from the phase on. -/
theorem phase_some :
    run (all [maybe (all [spaces, lit (ofString "phase=\""), group 2 quoted, lit [quote],
          optionalSpaces, maybe (group 3 positionPattern)]),
        maybe (all [spaces, lit (ofString "wakes="),
          group 4 (plus false (one fun u => !isSpace u))]), lit (ofString ">"), optionalSpaces,
        finish])
      { rest := input.phaseAttribute ++ (ofString " wakes=" ++
          (input.wakesText ++ ofString ">")), captures }
      (fun y => some y.captures) =
      some ((4, input.wakesText) :: (input.phaseCaptures ++ captures)) := by
  unfold WakeInput.phaseAttribute WakeInput.phaseCaptures
  cases hphase : input.shownPhase with
  | none =>
      refine all_some (maybe_none ?_ (wakes_some input))
      -- What follows the spaces is another attribute.
      rintro y ⟨z, hspaces, hrest⟩
      rcases hrest with ⟨z', ⟨hz, _⟩, _⟩
      rcases steps_plus_one hspaces with ⟨w, hw, hne, hspace, _⟩
      rw [hz] at hw
      cases w with
      | nil => exact hne rfl
      | cons u w =>
          have htail := (List.cons.inj hw).2
          cases w with
          | nil => exact absurd (List.cons.inj htail).1 (by decide)
          | cons v w =>
              have hv := hspace v (List.mem_cons_of_mem u List.mem_cons_self)
              rw [← (List.cons.inj htail).1] at hv
              exact absurd hv (by decide)
  | some shown =>
      rcases shown with ⟨phase, phaseCount⟩
      have hliteral : ofString " phase=" ++ (stringify phase ++ (ofString " " ++
          input.positionText phaseCount)) ++ (ofString " wakes=" ++
            (input.wakesText ++ ofString ">")) =
          [0x20] ++ (ofString "phase=\"" ++ (escape phase ++ quote :: ([0x20] ++
            (input.positionText phaseCount ++ (ofString " wakes=" ++
              (input.wakesText ++ ofString ">")))))) := by
        simp only [stringify, List.append_assoc, List.cons_append, List.nil_append]
        rfl
      simp only []
      rw [hliteral]
      refine all_some (maybe_some (all_some (spaces_some (by decide) (by decide) rfl
        (all_some (lit_some ?_)))))
      refine all_some (group_some (fun c hc => quoted_some phase hc) ?_)
      refine all_some (quote_some ?_)
      refine all_some (optionalSpaces_some (by decide) rfl ?_)
      exact maybe_some (position_some input hphase (wakes_some input))

/-- What the header pattern captures. -/
def WakeInput.headerCaptures (input : WakeInput) : Captures UInt16 :=
  (4, input.wakesText) :: (input.phaseCaptures ++ [(1, escape (input.task.getD input.runId))])

/-- The header is matched, and captures what was written. -/
theorem exec_header : exec headerPattern input.header = some input.headerCaptures := by
  have hliteral : input.header =
      ofString "<fleet-wake" ++ ([0x20] ++ (ofString "task=\"" ++
        (escape (input.task.getD input.runId) ++ quote :: ([0x20] ++ (ofString "taskId=\"" ++
          (escape input.runId ++ quote :: (input.phaseAttribute ++ (ofString " wakes=" ++
            (input.wakesText ++ ofString ">"))))))))) := by
    simp only [WakeInput.header, stringify, List.append_assoc, List.cons_append,
      List.nil_append]
    rfl
  rw [hliteral]
  refine all_some (lit_some (all_some (spaces_some (by decide) (by decide) rfl
    (all_some (lit_some ?_)))))
  refine all_some (group_some (fun c hc => quoted_some _ hc) ?_)
  refine all_some (quote_some ?_)
  refine all_some (maybe_some (all_some (spaces_some (by decide) (by decide) rfl
    (all_some (lit_some ?_)))))
  refine all_some (quoted_some _ (quote_some ?_))
  exact phase_some input

end

/-! ### Bullets -/

/-- A title as the orchestrator gives it: on one line, with no space around it. -/
structure Titled (title : Text) : Prop where
  trimmed : trim isSpace title = title
  line : ∀ u ∈ title, isLineTerminator u = false

/-- Not white space alone. -/
def Inked (text : Text) : Prop := ∃ u ∈ text, isSpace u = false

theorem Titled.inked {title u : Text} (h : Titled title) (hu : u <:+ title) (hne : u ≠ []) :
    Inked u := by
  have htitle : title ≠ [] := by
    rintro rfl
    exact hne (List.suffix_nil.mp hu)
  refine ⟨u.getLast hne, List.getLast_mem hne, ?_⟩
  have hlast := trim_last (p := isSpace) title (by rw [h.trimmed]; exact htitle)
  simp only [h.trimmed] at hlast
  rw [hu.getLast hne]
  exact hlast

/-- What the patterns allow between a title and what follows the parentheses. -/
def Enclosed (text : Text) : Prop :=
  ∃ before group after, text = before ++ (group ++ after) ∧
    (∀ u ∈ before, isSpace u = true) ∧ (∀ u ∈ after, isSpace u = true) ∧
      (group = [] ∨ ∃ inner, group = 0x28 :: (inner ++ [0x29]) ∧
        ∀ u ∈ inner, isParenthesis u = false)

theorem steps_enclosed {b : Pattern UInt16} {others : List (Pattern UInt16)}
    {x y : Point UInt16}
    (h : Steps (all (optionalSpaces :: workerPattern :: optionalSpaces :: b :: others)) x y) :
    ∃ text z, x.rest = text ++ z.rest ∧ Enclosed text ∧ Steps (all (b :: others)) z y := by
  rcases h with ⟨x₁, h₁, x₂, h₂, x₃, h₃, hothers⟩
  rcases steps_star_one h₁ with ⟨before, hbefore, hspaces, _⟩
  rcases steps_star_one h₃ with ⟨after, hafter, hspaces', _⟩
  rcases h₂ with ⟨y₁, ⟨hopen, _⟩, y₂, hgroup, ⟨hclose, _⟩⟩ | rfl
  · rcases steps_group hgroup with ⟨z, hinner, hz, _⟩
    rcases steps_star_one hinner with ⟨inner, hrest, hplain, _⟩
    refine ⟨before ++ (0x28 :: (inner ++ [0x29]) ++ after), x₃, ?_, ?_, hothers⟩
    · rw [hbefore, hopen, hrest, ← hz, hclose, hafter]
      simp only [List.append_assoc, List.cons_append, List.nil_append]
      rfl
    · exact ⟨before, _, after, rfl, hspaces, hspaces', .inr ⟨inner, rfl, fun u hu => by
        simpa using hplain u hu⟩⟩
  · refine ⟨before ++ ([] ++ after), x₃, ?_, ?_, hothers⟩
    · rw [hbefore, hafter, List.nil_append, List.append_assoc]
    · exact ⟨before, [], after, rfl, hspaces, hspaces', .inl rfl⟩

/-- Before the parenthesis that opens the group there are only spaces. -/
theorem Enclosed.blank {before rest : Text} (h : Enclosed (before ++ 0x28 :: rest)) :
    ∀ u ∈ before, isSpace u = true := by
  have hopen : isSpace 0x28 = false := by decide
  rcases h with ⟨run, group, run', htext, hrun, hrun', rfl | ⟨inner, rfl, hinner⟩⟩
  · -- Without a group there is no parenthesis at all.
    have hmem : (0x28 : UInt16) ∈ run ++ ([] ++ run') := by
      rw [← htext]
      exact List.mem_append_right before List.mem_cons_self
    rcases List.mem_append.mp hmem with hmem | hmem
    · rw [hrun _ hmem] at hopen
      cases hopen
    · rw [hrun' _ (by simpa using hmem)] at hopen
      cases hopen
  · have hafter : (0x28 : UInt16) ∉ inner ++ [0x29] ++ run' := by
      intro hmem
      rcases List.mem_append.mp hmem with hmem | hmem
      · rcases List.mem_append.mp hmem with hmem | hmem
        · exact absurd (hinner _ hmem) (by decide)
        · exact absurd (List.mem_singleton.mp hmem) (by decide)
      · rw [hrun' _ hmem] at hopen
        cases hopen
    rw [List.cons_append] at htext
    rcases List.append_eq_append_iff.mp htext with ⟨x, hx, hrest⟩ | ⟨x, hx, hrest⟩
    · intro u hu
      exact hrun u (by rw [hx]; exact List.mem_append_left x hu)
    · cases x with
      | nil =>
          intro u hu
          rw [hx, List.append_nil] at hu
          exact hrun u hu
      | cons v x =>
          -- A second parenthesis would open behind the first.
          refine absurd ?_ hafter
          rw [(List.cons.inj hrest).2]
          exact List.mem_append_right x List.mem_cons_self

section

variable {c : Continuation UInt16} {r : Captures UInt16} {b : Pattern UInt16}
  {others : List (Pattern UInt16)}

/-- The title is captured whole, if the rest matches behind it and from nowhere inside. -/
theorem title_some {title more : Text} (h : Titled title)
    (hearly : ∀ u gap cs, Inked u → (∀ v ∈ gap, isSpace v = true) →
      run (all (b :: others)) { rest := u ++ (gap ++ 0x28 :: more), captures := cs } c = none)
    (hc : ∀ gap, (∀ v ∈ gap, isSpace v = true) →
      run (all (b :: others)) { rest := gap ++ 0x28 :: more, captures := [(1, title)] } c =
        some r) :
    run (all (lit (ofString "-") :: spaces :: titlePattern :: b :: others))
      { rest := ofString "- " ++ (title ++ (ofString " (" ++ more)) } c = some r := by
  have hspace : ∀ v ∈ [(0x20 : UInt16)], isSpace v = true := by decide
  have htitle : ∀ u ∈ title, (fun u => !isLineTerminator u) u = true := by
    intro u hu
    simp [h.line u hu]
  have hfirst : startsWith isSpace title = false := by
    rw [← h.trimmed]
    exact startsWith_trim title
  by_cases hempty : title = []
  · -- Both spaces stand before the empty title.
    subst hempty
    have hgap : ∀ v ∈ [(0x20 : UInt16), 0x20], isSpace v = true := by decide
    change run _ { rest := [0x2D] ++ ([0x20, 0x20] ++ ([] ++ (0x28 :: more))) } c = some r
    refine all_some (lit_some (all_some (spaces_some hgap (by decide) rfl ?_)))
    refine all_some (group_lazy (by simp) ?_ (hc [] (by simp)))
    intro v t cs hsuffix
    exact absurd (List.suffix_nil.mp hsuffix) (List.cons_ne_nil v t)
  · change run _ { rest := [0x2D] ++ ([0x20] ++ (title ++ ([0x20] ++ 0x28 :: more))) } c = some r
    have hstart : startsWith isSpace (title ++ ([0x20] ++ 0x28 :: more)) = false := by
      cases title with
      | nil => exact absurd rfl hempty
      | cons u title => exact hfirst
    refine all_some (lit_some (all_some (spaces_some hspace (by decide) hstart ?_)))
    refine all_some (group_lazy htitle ?_ (hc [0x20] hspace))
    intro v t cs hsuffix
    exact hearly (v :: t) [0x20] cs (h.inked hsuffix (List.cons_ne_nil v t)) hspace

/-- What stands in parentheses behind a title is captured. -/
theorem worker_some {gap inner rest : Text} {captures : Captures UInt16}
    (hgap : ∀ v ∈ gap, isSpace v = true) (hinner : ∀ u ∈ inner, isParenthesis u = false)
    (hrest : startsWith isSpace rest = false)
    (hc : run (all (b :: others)) { rest, captures := (2, inner) :: captures } c = some r) :
    run (all (optionalSpaces :: workerPattern :: optionalSpaces :: b :: others))
      { rest := gap ++ 0x28 :: (inner ++ (0x29 :: rest)), captures } c = some r := by
  have hplain : ∀ u ∈ inner, (fun u => !isParenthesis u) u = true := by
    intro u hu
    simp [hinner u hu]
  refine all_some (optionalSpaces_some hgap rfl ?_)
  refine all_some (maybe_some ?_)
  change run _ { rest := ofString "(" ++ (inner ++ (ofString ")" ++ rest)), captures } _ = some r
  refine all_some (lit_some (all_some (group_some (fun c hc => run_greedy_one hplain ?_ hc) ?_)))
  · intro v hv
    cases hv
    rfl
  · refine lit_some ?_
    change run _ { rest := [] ++ rest, captures := _ } _ = some r
    exact all_some (optionalSpaces_some (by simp) hrest hc)

end

/-- The category and the session of a step, as a bullet can carry them. -/
def Parenthesized (text : Text) : Prop := ∀ u ∈ text, isParenthesis u = false ∧ u ≠ newline

theorem parenthesized_worker {category sessionId : Text} (hcategory : Parenthesized category)
    (hsession : Parenthesized sessionId) : Parenthesized (worker category sessionId) := by
  intro u hu
  rcases List.mem_append.mp hu with hu | hu
  · exact hcategory u hu
  · rcases List.mem_append.mp hu with hu | hu
    · have hliteral : ∀ u ∈ ofString ", session ", isParenthesis u = false ∧ u ≠ newline := by
        decide
      exact hliteral u hu
    · exact hsession u hu

/-- One word. -/
structure Word (text : Text) : Prop where
  nonempty : text ≠ []
  plain : ∀ u ∈ text, isSpace u = false

instance (text : Text) : Decidable (Word text) :=
  decidable_of_iff (text ≠ [] ∧ ∀ u ∈ text, isSpace u = false)
    ⟨fun h => ⟨h.1, h.2⟩, fun h => ⟨h.nonempty, h.plain⟩⟩

/-- From inside a title, nothing in what follows makes the rest of the pattern match. -/
theorem settled_early {u gap inner state : Text} {cs : Captures UInt16}
    {c : Continuation UInt16} (hu : Inked u) (hstate : Word state) :
    run (all [optionalSpaces, workerPattern, optionalSpaces, lit (ofString ":"), optionalSpaces,
        group 3 (plus true (one fun u => !isSpace u)), optionalSpaces, finish])
      { rest := u ++ (gap ++ 0x28 :: (inner ++ (0x29 :: (ofString ": " ++ state)))),
        captures := cs } c = none := by
  refine run_eq_none ?_
  intro y hsteps
  exfalso
  rcases steps_enclosed hsteps with ⟨text, z, htext, henclosed, hothers⟩
  rcases hothers with ⟨z₁, ⟨hcolon, _⟩, z₂, hgap, z₃, hgroup, z₄, hend, hfinish, _⟩
  rcases steps_star_one hgap with ⟨run, hrun, hspaces, _⟩
  rcases steps_group hgroup with ⟨z₅, hplus, hz₅, _⟩
  rcases steps_plus_one hplus with ⟨w, hw, _, hplain, _⟩
  rcases steps_star_one hend with ⟨run', hrun', hspaces', _⟩
  rw [hfinish, List.append_nil] at hrun'
  have hrest : z₁.rest = run ++ (w ++ run') := by rw [hrun, hw, ← hz₅, hrun']
  rw [hcolon, hrest] at htext
  have hword : ∀ u ∈ w, isSpace u = false := fun u hu => by simpa using hplain u hu
  -- Does the colon stand behind the opening parenthesis, or before it?
  have hreassoc : u ++ (gap ++ 0x28 :: (inner ++ (0x29 :: (ofString ": " ++ state)))) =
      (u ++ (gap ++ [0x28])) ++ (inner ++ (0x29 :: (ofString ": " ++ state))) := by
    simp only [List.append_assoc, List.cons_append, List.nil_append]
  change _ = text ++ (0x3A :: (run ++ (w ++ run'))) at htext
  rw [hreassoc] at htext
  rcases List.append_eq_append_iff.mp htext with ⟨x, htext', _⟩ | ⟨x, _, hcolon'⟩
  · -- Behind it, the group has to be the one written, with only spaces before it.
    have hform : text = (u ++ gap) ++ 0x28 :: x := by
      rw [htext']
      simp only [List.append_assoc, List.cons_append, List.nil_append]
    rw [hform] at henclosed
    rcases hu with ⟨v, hv, hplain⟩
    have hspace := henclosed.blank v (List.mem_append_left gap hv)
    rw [hspace] at hplain
    cases hplain
  · -- Before it, there would have to be one word where there are two.
    rw [← List.append_assoc x] at hcolon'
    cases hbefore : x ++ inner with
    | nil =>
        rw [hbefore] at hcolon'
        exact absurd (List.cons.inj hcolon').1 (by decide)
    | cons v before =>
        rw [hbefore] at hcolon'
        have htail : run ++ (w ++ run') = (before ++ [0x29, 0x3A]) ++ 0x20 :: state := by
          rw [(List.cons.inj hcolon').2]
          simp only [List.append_assoc, List.cons_append, List.nil_append]
          rfl
        rcases around_separator hspaces hword hspaces' rfl htail with hblank | hblank
        · exact absurd (hblank 0x29 (by simp)) (by decide)
        · have hfirst := hstate.plain _ (List.head_mem hstate.nonempty)
          rw [hblank _ (List.head_mem hstate.nonempty)] at hfirst
          cases hfirst

theorem running_early {u gap inner : Text} {cs : Captures UInt16} {c : Continuation UInt16}
    (hu : Inked u) :
    run (all [optionalSpaces, workerPattern, optionalSpaces, finish])
      { rest := u ++ (gap ++ 0x28 :: inner), captures := cs } c = none := by
  refine run_eq_none ?_
  intro y hsteps
  exfalso
  rcases steps_enclosed hsteps with ⟨text, z, htext, henclosed, hfinish, _⟩
  have hform : text = (u ++ gap) ++ 0x28 :: inner := by
    rw [hfinish, List.append_nil] at htext
    rw [← htext, List.append_assoc]
  rw [hform] at henclosed
  rcases hu with ⟨v, hv, hplain⟩
  rw [henclosed.blank v (List.mem_append_left gap hv)] at hplain
  cases hplain

/-- A settled step's bullet is matched, and captures its title and its state. -/
theorem exec_settled {step : SettledStep} (htitle : Titled step.title)
    (hworker : Parenthesized (worker step.category step.sessionId)) (hstate : Word step.state) :
    exec settledPattern step.bullet =
      some [(3, step.state), (2, worker step.category step.sessionId), (1, step.title)] := by
  have hstart : startsWith isSpace step.state = false := by
    have h : startsWith isSpace (step.state ++ []) = false :=
      startsWith_of_all hstate.nonempty hstate.plain
    rwa [List.append_nil] at h
  have hword : ∀ u ∈ step.state, (fun u => !isSpace u) u = true := by
    intro u hu
    simp [hstate.plain u hu]
  refine title_some htitle (fun u gap cs hu _ => settled_early hu hstate) ?_
  intro gap hgap
  refine worker_some hgap (fun u hu => (hworker u hu).1) rfl ?_
  change run _ { rest := ofString ":" ++ ([0x20] ++ step.state), captures := _ } _ = _
  refine all_some (lit_some (all_some (optionalSpaces_some (by decide) hstart ?_)))
  have hmatch : ∀ c : Continuation UInt16, ∀ cs r, c { rest := [], captures := cs } = some r →
      run (plus true (one fun u => !isSpace u)) { rest := step.state ++ [], captures := cs } c =
        some r := by
    intro c cs r hc
    cases hcons : step.state with
    | nil => exact absurd hcons hstate.nonempty
    | cons v rest =>
        rw [hcons] at hword
        exact run_plus_one (hword v List.mem_cons_self)
          (fun u hu => hword u (List.mem_cons_of_mem v hu)) (by simp) hc
  rw [← List.append_nil step.state]
  refine all_some (group_some (fun c hc => hmatch c _ _ hc) ?_)
  change run _ { rest := [] ++ [], captures := _ } _ = _
  rw [List.append_nil step.state]
  exact all_some (optionalSpaces_some (by simp) rfl (finish_some rfl))

/-- A running step's bullet is matched, and captures its title. -/
theorem exec_running {step : RunningStep} (htitle : Titled step.title)
    (hworker : Parenthesized (worker step.category step.sessionId)) :
    exec runningPattern step.bullet =
      some [(2, worker step.category step.sessionId), (1, step.title)] := by
  refine title_some htitle (fun u gap cs hu _ => running_early hu) ?_
  intro gap hgap
  exact worker_some hgap (fun u hu => (hworker u hu).1) rfl (finish_some rfl)

/-- Whatever is read as a settled step has one word for its state. -/
theorem word_of_readSettled {line : Text} {step : SettledSummary}
    (h : readSettled line = some step) : Word step.state := by
  unfold readSettled at h
  rcases Option.map_eq_some_iff.mp h with ⟨captured, hexec, rfl⟩
  rcases exec_steps hexec with ⟨y, hsteps, rfl⟩
  rcases hsteps with ⟨_, _, _, _, _, _, _, _, _, _, _, _, _, _, z₀, _, z₁, hgroup, z₂, hend, _, rfl⟩
  rcases steps_group hgroup with ⟨z, hplus, _, hcaptures⟩
  rcases steps_plus_one hplus with ⟨w, hw, hne, hplain, _⟩
  rcases steps_star_one hend with ⟨_, _, _, hend⟩
  rw [hend, hcaptures w hw]
  exact ⟨hne, fun u hu => by simpa using hplain u hu⟩

/-! ### Lines -/

/-- Joined lines split where they were joined, and where they break themselves. -/
theorem splitOn_joined {lines : List Text} (hne : lines ≠ []) :
    ([newline].intercalate lines).splitOn newline = lines.flatMap (·.splitOn newline) := by
  induction lines with
  | nil => exact absurd rfl hne
  | cons line rest ih =>
      cases rest with
      | nil => simp
      | cons next rest =>
          rw [List.intercalate_cons_cons, List.append_assoc, List.singleton_append,
            List.splitOn_append_cons_self, ih (List.cons_ne_nil next rest)]
          rfl

/-- The lines of an output, as the reader looks at them. -/
def SettledStep.outputLines (step : SettledStep) : List Text :=
  (step.outputText.splitOn newline).map (trim isSpace)

theorem trim_indented (text : Text) :
    ((ofString "  " ++ text).splitOn newline).map (trim isSpace) =
      (text.splitOn newline).map (trim isSpace) := by
  have hindent : ∀ text : Text, ((0x20 :: text).splitOn newline).map (trim isSpace) =
      (text.splitOn newline).map (trim isSpace) := by
    intro text
    rw [List.splitOn_cons_eq_if_modifyHead, if_neg (by decide)]
    cases text.splitOn newline with
    | nil => rfl
    | cons line rest =>
        rw [List.modifyHead_cons, List.map_cons, List.map_cons]
        have hspace : ∀ u ∈ [(0x20 : UInt16)], isSpace u = true := by decide
        have htrim : trim isSpace ([0x20] ++ line) = trim isSpace line := trim_append hspace
        exact congrArg (· :: rest.map (trim isSpace)) htrim
  change ((0x20 :: (0x20 :: text)).splitOn newline).map (trim isSpace) = _
  rw [hindent, hindent]

/-- A line that ends a section of the wake, or the wake. -/
def isControl (line : Text) : Bool :=
  line = ofString "</fleet-wake>" || (ofString "Still running:").isPrefixOf line

theorem readSettled_dash {line : Text} {step : SettledSummary}
    (h : readSettled line = some step) : ∃ rest, line = 0x2D :: rest := by
  unfold readSettled at h
  rcases Option.map_eq_some_iff.mp h with ⟨captured, hexec, _⟩
  rcases exec_steps hexec with ⟨y, ⟨z, ⟨hdash, _⟩, _⟩, _⟩
  exact ⟨z.rest, hdash⟩

/-- A line that begins with a dash is looked at in either section. -/
theorem readLines_dash {place : Section} {summary : WakeSummary} {raw rest : Text}
    {others : List Text} (h : trim isSpace raw = 0x2D :: rest) :
    readLines (some place) summary (raw :: others) =
      match place with
      | .settled =>
          readLines (some place) { summary with
            settled := summary.settled ++ (readSettled (0x2D :: rest)).toList } others
      | .running =>
          readLines (some place) { summary with
            running := summary.running ++ (readRunning (0x2D :: rest)).toList } others := by
  have hclose : (0x2D :: rest) ≠ ofString "</fleet-wake>" := by
    intro heq
    exact absurd (List.cons.inj heq).1 (by decide)
  have hfinished : (ofString "Just finished:").isPrefixOf (0x2D :: rest) = false := rfl
  have hrunning : (ofString "Still running:").isPrefixOf (0x2D :: rest) = false := rfl
  have hdash : (ofString "-").isPrefixOf (0x2D :: rest) = true := by
    change List.isPrefixOf [0x2D] (0x2D :: rest) = true
    simp [List.isPrefixOf]
  rw [readLines.eq_def]
  simp only [h, hclose, hfinished, hrunning, hdash, if_false, if_true, Bool.false_eq_true]
  cases place <;> rfl

/-- In the settled section, a line that controls nothing adds the step it is read as. -/
theorem readLines_settled {summary : WakeSummary} {raw : Text} {others : List Text}
    (h : isControl (trim isSpace raw) = false) :
    readLines (some .settled) summary (raw :: others) =
      readLines (some .settled) { summary with
        settled := summary.settled ++ (readSettled (trim isSpace raw)).toList } others := by
  unfold isControl at h
  rw [Bool.or_eq_false_iff, decide_eq_false_iff_not] at h
  by_cases hdash : ∃ rest, trim isSpace raw = 0x2D :: rest
  · rcases hdash with ⟨rest, hrest⟩
    rw [readLines_dash hrest, hrest]
  · have hnone : readSettled (trim isSpace raw) = none := by
      rw [Option.eq_none_iff_forall_ne_some]
      intro step hstep
      exact hdash (readSettled_dash hstep)
    have hdash : (ofString "-").isPrefixOf (trim isSpace raw) = false := by
      cases hline : trim isSpace raw with
      | nil => rfl
      | cons u rest =>
          change List.isPrefixOf [0x2D] (u :: rest) = false
          simp only [List.isPrefixOf, Bool.and_true, beq_eq_false_iff_ne]
          rintro rfl
          exact hdash ⟨rest, hline⟩
    rw [readLines.eq_def]
    simp only [h.1, h.2, hdash, hnone, if_false, Bool.false_eq_true, Option.toList_none,
      List.append_nil]
    split <;> rfl

/-- What is read of a settled step: the step, and what its output adds. -/
def SettledStep.read (step : SettledStep) : List SettledSummary :=
  { title := step.title, state := step.state } :: step.outputLines.filterMap readSettled

theorem readLines_output {summary : WakeSummary} {raws others : List Text}
    (h : ∀ raw ∈ raws, isControl (trim isSpace raw) = false) :
    readLines (some .settled) summary (raws ++ others) =
      readLines (some .settled) { summary with
        settled := summary.settled ++ (raws.map (trim isSpace)).filterMap readSettled }
        others := by
  induction raws generalizing summary with
  | nil => simp
  | cons raw raws ih =>
      rw [List.cons_append, readLines_settled (h raw List.mem_cons_self),
        ih fun raw' hraw => h raw' (List.mem_cons_of_mem raw hraw)]
      cases hread : readSettled (trim isSpace raw) with
      | none => simp [hread]
      | some step => simp [hread]

/-- What the reader can be expected to make out of a wake. -/
structure Legible (input : WakeInput) : Prop where
  settled : ∀ step ∈ input.settled,
    Titled step.title ∧ Parenthesized step.category ∧ Parenthesized step.sessionId
  running : ∀ step ∈ input.running,
    Titled step.title ∧ Parenthesized step.category ∧ Parenthesized step.sessionId

theorem Titled.unbroken {title : Text} (h : Titled title) {u : UInt16} (hu : u ∈ title) :
    u ≠ newline := by
  rintro rfl
  exact absurd (h.line newline hu) (by decide)

/-- A bullet is one line, and begins and ends with what is no space. -/
theorem bullet_line {bullet title text : Text} (h : bullet = ofString "- " ++ (title ++ text))
    (htitle : Titled title) (htext : ∀ u ∈ text, u ≠ newline)
    (hlast : ∀ h : text ≠ [], isSpace (text.getLast h) = false) (hne : text ≠ []) :
    bullet.splitOn newline = [bullet] ∧ trim isSpace bullet = bullet ∧
      ∃ rest, bullet = 0x2D :: rest := by
  have hdash : ∀ u ∈ ofString "- ", u ≠ newline := by decide
  refine ⟨?_, ?_, ⟨0x20 :: (title ++ text), h⟩⟩
  · refine List.splitOn_eq_singleton ?_
    intro hmem
    rw [h] at hmem
    rcases List.mem_append.mp hmem with hmem | hmem
    · exact hdash _ hmem rfl
    · rcases List.mem_append.mp hmem with hmem | hmem
      · exact htitle.unbroken hmem rfl
      · exact htext _ hmem rfl
  · rw [h]
    refine trim_eq_self rfl ?_
    intro h
    have hlast' := hlast hne
    rw [List.getLast_append_of_ne_nil _ (List.append_ne_nil_of_right_ne_nil title hne),
      List.getLast_append_of_ne_nil _ hne]
    exact hlast'

/-- A bullet is read as the step it reports. -/
theorem readLines_dashed {place : Section} {summary : WakeSummary} {bullet : Text}
    {others : List Text} (htrim : trim isSpace bullet = bullet)
    (hdash : ∃ rest, bullet = 0x2D :: rest) :
    readLines (some place) summary (bullet :: others) =
      match place with
      | .settled =>
          readLines (some place) { summary with
            settled := summary.settled ++ (readSettled bullet).toList } others
      | .running =>
          readLines (some place) { summary with
            running := summary.running ++ (readRunning bullet).toList } others := by
  rcases hdash with ⟨rest, rfl⟩
  exact readLines_dash htrim

/-- A settled step's lines are read as the step and what its output adds. -/
theorem readLines_step {step : SettledStep} {summary : WakeSummary} {others : List Text}
    (htitle : Titled step.title)
    (hworker : Parenthesized (worker step.category step.sessionId)) (hstate : Word step.state)
    (hcontrol : ∀ line ∈ step.outputLines, isControl line = false) :
    readLines (some .settled) summary (step.lines.flatMap (·.splitOn newline) ++ others) =
      readLines (some .settled) { summary with settled := summary.settled ++ step.read }
        others := by
  -- Nothing after the title breaks the line.
  have hunbroken : ∀ u ∈ ofString " (" ++ (worker step.category step.sessionId ++
      (ofString "): " ++ step.state)), u ≠ newline := by
    have hopen : ∀ u ∈ ofString " (", u ≠ newline := by decide
    have hclose : ∀ u ∈ ofString "): ", u ≠ newline := by decide
    intro u hu
    rcases List.mem_append.mp hu with hu | hu
    · exact hopen u hu
    · rcases List.mem_append.mp hu with hu | hu
      · exact (hworker u hu).2
      · rcases List.mem_append.mp hu with hu | hu
        · exact hclose u hu
        · rintro rfl
          exact absurd (hstate.plain newline hu) (by decide)
  have hne : ofString " (" ++ (worker step.category step.sessionId ++
      (ofString "): " ++ step.state)) ≠ [] := List.cons_ne_nil _ _
  -- It does not end in a space, so trimming leaves it whole.
  have hlast : ∀ h, isSpace ((ofString " (" ++ (worker step.category step.sessionId ++
      (ofString "): " ++ step.state))).getLast h) = false := by
    intro h
    have htail : ofString "): " ++ step.state ≠ [] := List.cons_ne_nil _ _
    rw [List.getLast_append_of_ne_nil _ (List.append_ne_nil_of_right_ne_nil _ htail),
      List.getLast_append_of_ne_nil _ htail, List.getLast_append_of_ne_nil _ hstate.nonempty]
    exact hstate.plain _ (List.getLast_mem hstate.nonempty)
  have hline : step.bullet.splitOn newline = [step.bullet] ∧ trim isSpace step.bullet =
      step.bullet ∧ ∃ rest, step.bullet = 0x2D :: rest :=
    bullet_line rfl htitle hunbroken hlast hne
  have hread : readSettled step.bullet = some { title := step.title, state := step.state } := by
    unfold readSettled
    rw [exec_settled htitle hworker hstate]
    rfl
  have hlines : step.lines.flatMap (·.splitOn newline) ++ others =
      step.bullet :: ((ofString "  " ++ step.outputText).splitOn newline ++ others) := by
    unfold SettledStep.lines
    rw [List.flatMap_cons, List.flatMap_singleton, hline.1]
    rfl
  rw [hlines, readLines_dashed hline.2.1 hline.2.2]
  simp only []
  rw [hread, readLines_output, trim_indented]
  · simp [SettledStep.read, SettledStep.outputLines]
  · intro raw hraw
    refine hcontrol _ ?_
    unfold SettledStep.outputLines
    rw [← trim_indented]
    exact List.mem_map_of_mem hraw

theorem readLines_steps {steps : List SettledStep} {summary : WakeSummary} {others : List Text}
    (h : ∀ step ∈ steps, (Titled step.title ∧ Parenthesized step.category ∧
      Parenthesized step.sessionId) ∧ Word step.state ∧
        ∀ line ∈ step.outputLines, isControl line = false) :
    readLines (some .settled) summary
        ((steps.flatMap SettledStep.lines).flatMap (·.splitOn newline) ++ others) =
      readLines (some .settled) { summary with
        settled := summary.settled ++ steps.flatMap SettledStep.read } others := by
  induction steps generalizing summary with
  | nil => simp
  | cons step rest ih =>
      have hstep := h step List.mem_cons_self
      rw [List.flatMap_cons, List.flatMap_append, List.append_assoc,
        readLines_step hstep.1.1 (parenthesized_worker hstep.1.2.1 hstep.1.2.2) hstep.2.1
          hstep.2.2, ih fun step' hstep' => h step' (List.mem_cons_of_mem step hstep')]
      simp

/-- A running step's bullet is read as its title. -/
theorem readLines_bullet {step : RunningStep} {summary : WakeSummary} {others : List Text}
    (htitle : Titled step.title)
    (hworker : Parenthesized (worker step.category step.sessionId)) :
    readLines (some .running) summary (step.bullet.splitOn newline ++ others) =
      readLines (some .running) { summary with running := summary.running ++ [step.title] }
        others := by
  have hunbroken : ∀ u ∈ ofString " (" ++ (worker step.category step.sessionId ++
      ofString ")"), u ≠ newline := by
    have hopen : ∀ u ∈ ofString " (", u ≠ newline := by decide
    have hclose : ∀ u ∈ ofString ")", u ≠ newline := by decide
    intro u hu
    rcases List.mem_append.mp hu with hu | hu
    · exact hopen u hu
    · rcases List.mem_append.mp hu with hu | hu
      · exact (hworker u hu).2
      · exact hclose u hu
  have hlast : ∀ h, isSpace ((ofString " (" ++ (worker step.category step.sessionId ++
      ofString ")")).getLast h) = false := by
    intro h
    have htail : ofString ")" ≠ [] := by decide
    rw [List.getLast_append_of_ne_nil _ (List.append_ne_nil_of_right_ne_nil _ htail),
      List.getLast_append_of_ne_nil _ htail]
    rfl
  have hline : step.bullet.splitOn newline = [step.bullet] ∧ trim isSpace step.bullet =
      step.bullet ∧ ∃ rest, step.bullet = 0x2D :: rest :=
    bullet_line rfl htitle hunbroken hlast (List.cons_ne_nil _ _)
  have hread : readRunning step.bullet = some step.title := by
    unfold readRunning
    rw [exec_running htitle hworker]
    rfl
  rw [hline.1, List.singleton_append, readLines_dashed hline.2.1 hline.2.2]
  simp only []
  rw [hread]
  rfl

theorem readLines_bullets {steps : List RunningStep} {summary : WakeSummary}
    {others : List Text}
    (h : ∀ step ∈ steps, Titled step.title ∧ Parenthesized step.category ∧
      Parenthesized step.sessionId) :
    readLines (some .running) summary
        ((steps.map RunningStep.bullet).flatMap (·.splitOn newline) ++ others) =
      readLines (some .running) { summary with
        running := summary.running ++ steps.map RunningStep.title } others := by
  induction steps generalizing summary with
  | nil => simp
  | cons step rest ih =>
      have hstep := h step List.mem_cons_self
      rw [List.map_cons, List.flatMap_cons, List.append_assoc,
        readLines_bullet hstep.1 (parenthesized_worker hstep.2.1 hstep.2.2),
        ih fun step' hstep' => h step' (List.mem_cons_of_mem step hstep')]
      simp

theorem readLines_close {place : Option Section} {summary : WakeSummary} {others : List Text} :
    readLines place summary ((ofString "</fleet-wake>").splitOn newline ++ others) = summary := by
  have hsplit : (ofString "</fleet-wake>").splitOn newline = [ofString "</fleet-wake>"] :=
    List.splitOn_eq_singleton (by decide)
  have htrim : trim isSpace (ofString "</fleet-wake>") = ofString "</fleet-wake>" := by decide
  rw [hsplit, List.singleton_append, readLines.eq_def]
  simp only [htrim, if_true]

/-- The running section, and the end of the wake. -/
theorem readLines_running {input : WakeInput} {summary : WakeSummary} {others : List Text}
    (h : Legible input) :
    readLines (some .settled) summary (input.runningLines.flatMap (·.splitOn newline) ++
        ((ofString "</fleet-wake>").splitOn newline ++ others)) =
      { summary with running := summary.running ++ input.running.map RunningStep.title } := by
  unfold WakeInput.runningLines
  by_cases hnone : input.running = []
  · rw [if_neg (not_not.mpr hnone), hnone]
    simp [readLines_close]
  · have hsplit : (ofString "Still running:").splitOn newline = [ofString "Still running:"] :=
      List.splitOn_eq_singleton (by decide)
    have htrim : trim isSpace (ofString "Still running:") = ofString "Still running:" := by
      decide
    have hclose : ofString "Still running:" ≠ ofString "</fleet-wake>" := by decide
    have hfinished : (ofString "Just finished:").isPrefixOf (ofString "Still running:") = false :=
      rfl
    have hrunning : (ofString "Still running:").isPrefixOf (ofString "Still running:") = true :=
      rfl
    rw [if_pos hnone, List.flatMap_cons, hsplit, List.singleton_append, List.cons_append,
      readLines.eq_def]
    simp only [htrim, hclose, hfinished, hrunning, if_false, if_true, Bool.false_eq_true]
    rw [readLines_bullets h.running, readLines_close]

/-! ### Whole wakes -/

/-- What the header says is read off what was captured of it. -/
def WakeInput.summary (input : WakeInput) : WakeSummary where
  task := input.task.getD input.runId
  phase := input.shownPhase.elim [] fun shown =>
    shown.1 ++ (ofString " " ++ input.positionText shown.2)
  wakes := input.wakesText

theorem unquote_escape (text : Text) : unquote (escape text) = text := by
  unfold unquote
  rw [unescape_escape]
  rfl

theorem readHeader_captures (input : WakeInput) :
    readHeader input.headerCaptures = input.summary := by
  have hnothing : unquote [] = [] := rfl
  unfold readHeader WakeInput.headerCaptures WakeInput.phaseCaptures WakeInput.summary
  cases hphase : input.shownPhase with
  | none => simp [List.lookup_nil, List.lookup_cons, unquote_escape, hnothing]
  | some shown =>
      have hne : shown.1 ≠ [] := (phaseNumber_of_shown input hphase).1
      have hposition : input.positionText shown.2 ≠ [] := List.cons_ne_nil _ _
      have hspace : ofString " " = [0x20] := by decide
      simp [List.lookup_cons, unquote_escape, hne, hposition, hspace, List.intercalate]

theorem wakesText_unbroken (input : WakeInput) {u : UInt16} (hu : u ∈ input.wakesText) :
    u ≠ newline := by
  rintro rfl
  exact absurd (wakesText_plain input hu).1 (by decide)

theorem chunk_unbroken {w : Text} (h : Chunk w) {u : UInt16} (hu : u ∈ w) : u ≠ newline := by
  rcases h with ⟨v, rfl, hv⟩ | ⟨letter, rfl, hlow, _⟩
  · rw [List.mem_singleton.mp hu]
    rintro rfl
    exact absurd hv (by decide)
  · rcases List.mem_cons.mp hu with rfl | hu
    · decide
    · rw [List.mem_singleton.mp hu]
      rintro rfl
      exact absurd hlow (by decide)

/-- What is quoted stays on its line. -/
theorem stringify_unbroken {text : Text} {u : UInt16} (hu : u ∈ stringify text) :
    u ≠ newline := by
  rcases List.mem_cons.mp hu with rfl | hu
  · decide
  · rcases List.mem_append.mp hu with hu | hu
    · rcases escape_chunks text with ⟨ws, hws, hchunks⟩
      rw [← hws] at hu
      rcases List.mem_flatten.mp hu with ⟨w, hw, hu⟩
      exact chunk_unbroken (hchunks w hw) hu
    · rw [List.mem_singleton.mp hu]
      decide

theorem decimal_unbroken {n : Nat} {u : UInt16} (hu : u ∈ decimal n) : u ≠ newline := by
  rintro rfl
  exact absurd (isDigit_decimal hu) (by decide)

theorem phaseAttribute_unbroken (input : WakeInput) {u : UInt16}
    (hu : u ∈ input.phaseAttribute) : u ≠ newline := by
  have hopen : ∀ u ∈ ofString " phase=", u ≠ newline := by decide
  have hspace : ∀ u ∈ ofString " ", u ≠ newline := by decide
  have hparenthesis : ∀ u ∈ ofString "(", u ≠ newline := by decide
  have hslash : ∀ u ∈ ofString "/", u ≠ newline := by decide
  have hclose : ∀ u ∈ ofString ")", u ≠ newline := by decide
  unfold WakeInput.phaseAttribute at hu
  cases hphase : input.shownPhase with
  | none =>
      rw [hphase] at hu
      cases hu
  | some shown =>
      rcases (phaseNumber_of_shown input hphase).2 with ⟨phaseNumber, hnumber⟩
      rw [hphase] at hu
      simp only [WakeInput.positionText, hnumber, Option.elim_some, List.mem_append] at hu
      rcases hu with hu | hu | hu | hu | hu | hu | hu | hu
      · exact hopen u hu
      · exact stringify_unbroken hu
      · exact hspace u hu
      · exact hparenthesis u hu
      · exact decimal_unbroken hu
      · exact hslash u hu
      · exact decimal_unbroken hu
      · exact hclose u hu

/-- The header is one line, and begins and ends with what is no space. -/
theorem header_line (input : WakeInput) :
    input.header.splitOn newline = [input.header] ∧
      trim isSpace input.header = input.header := by
  have hopen : ∀ u ∈ ofString "<fleet-wake task=", u ≠ newline := by decide
  have hid : ∀ u ∈ ofString " taskId=", u ≠ newline := by decide
  have hwakes : ∀ u ∈ ofString " wakes=", u ≠ newline := by decide
  have hclose : ∀ u ∈ ofString ">", u ≠ newline := by decide
  constructor
  · refine List.splitOn_eq_singleton ?_
    intro hmem
    simp only [WakeInput.header, List.mem_append] at hmem
    rcases hmem with hmem | hmem | hmem | hmem | hmem | hmem | hmem | hmem
    · exact hopen _ hmem rfl
    · exact stringify_unbroken hmem rfl
    · exact hid _ hmem rfl
    · exact stringify_unbroken hmem rfl
    · exact phaseAttribute_unbroken input hmem rfl
    · exact hwakes _ hmem rfl
    · exact wakesText_unbroken input hmem rfl
    · exact hclose _ hmem rfl
  · refine trim_eq_self rfl ?_
    intro h
    have hlast : ∀ text : Text, ∀ h : text ++ ofString ">" ≠ [],
        isSpace ((text ++ ofString ">").getLast h) = false := by
      intro text h
      rw [List.getLast_append_of_ne_nil h (by decide)]
      rfl
    have hform : input.header = (ofString "<fleet-wake task=" ++
        (stringify (input.task.getD input.runId) ++ (ofString " taskId=" ++
          (stringify input.runId ++ (input.phaseAttribute ++ (ofString " wakes=" ++
            input.wakesText)))))) ++ ofString ">" := by
      simp only [WakeInput.header, List.append_assoc]
    simp only [hform]
    exact hlast _ _

/-- Reading a wake comes to reading the lines below its header. -/
theorem parseWake_envelope (input : WakeInput) :
    parseWake (wakeEnvelope input) =
      some (readLines none input.summary (input.body.flatMap (·.splitOn newline))) := by
  have hsplit : (wakeEnvelope input).splitOn newline =
      input.header :: input.body.flatMap (·.splitOn newline) := by
    unfold wakeEnvelope
    rw [splitOn_joined (List.cons_ne_nil _ _), List.flatMap_cons, (header_line input).1]
    rfl
  unfold parseWake
  simp only [hsplit]
  rw [(header_line input).2, exec_header, Option.map_some, readHeader_captures]

/-- No line of an output ends a section. -/
def Uncontrolled (input : WakeInput) : Prop :=
  ∀ step ∈ input.settled, ∀ line ∈ step.outputLines, isControl line = false

/-- What is read of a wake whose outputs control nothing. -/
theorem parseWake_uncontrolled {input : WakeInput} (h : Legible input)
    (hstates : ∀ step ∈ input.settled, Word step.state) (hcontrol : Uncontrolled input) :
    parseWake (wakeEnvelope input) = some { input.summary with
      settled := input.settled.flatMap SettledStep.read
      running := input.running.map RunningStep.title } := by
  have hfinished : (ofString "Just finished:").splitOn newline = [ofString "Just finished:"] :=
    List.splitOn_eq_singleton (by decide)
  have htrim : trim isSpace (ofString "Just finished:") = ofString "Just finished:" := by decide
  have hclose : ofString "Just finished:" ≠ ofString "</fleet-wake>" := by decide
  have hstart : (ofString "Just finished:").isPrefixOf (ofString "Just finished:") = true := rfl
  rw [parseWake_envelope]
  unfold WakeInput.body
  rw [List.flatMap_cons, hfinished, List.singleton_append, readLines.eq_def]
  simp only [htrim, hclose, hstart, if_false, if_true]
  rw [List.flatMap_append, List.flatMap_append, List.flatMap_cons,
    readLines_steps fun step hstep =>
      ⟨h.settled step hstep, hstates step hstep, hcontrol step hstep⟩,
    readLines_running h]
  rfl

/-- Whatever is read, every state in it is one word. -/
theorem word_of_readLines {place : Option Section} {summary : WakeSummary} {lines : List Text}
    (h : ∀ step ∈ summary.settled, Word step.state) :
    ∀ step ∈ (readLines place summary lines).settled, Word step.state := by
  induction lines generalizing place summary with
  | nil => rwa [readLines]
  | cons raw rest ih =>
      rw [readLines.eq_def]
      simp only []
      split
      · exact h
      split
      · exact ih h
      split
      · exact ih h
      split
      · split
        · exact ih h
        · refine ih ?_
          intro step hstep
          rcases List.mem_append.mp hstep with hstep | hstep
          · exact h step hstep
          · exact word_of_readSettled (Option.mem_toList.mp hstep)
        · exact ih h
      · exact ih h

/-- The wake reports its steps as it was told to, and nothing else. -/
def Survives (input : WakeInput) : Prop :=
  parseWake (wakeEnvelope input) = some { input.summary with
    settled := input.settled.map fun step => { title := step.title, state := step.state }
    running := input.running.map RunningStep.title }

/-- No output line is read as structure, and every state is one word. -/
structure Quiet (input : WakeInput) : Prop where
  states : ∀ step ∈ input.settled, Word step.state
  control : Uncontrolled input
  unread : ∀ step ∈ input.settled, ∀ line ∈ step.outputLines, readSettled line = none

/-- With something more for one of its elements, a list is longer. -/
theorem nothing_more {α : Type*} {β : Type*} {f : α → β} {g : α → List β} {l : List α}
    (h : l.map f = l.flatMap fun a => f a :: g a) : ∀ a ∈ l, g a = [] := by
  have hlength : ∀ l : List α, l.length ≤ (l.flatMap fun a => f a :: g a).length := by
    intro l
    induction l with
    | nil => simp
    | cons a l ih =>
        simp only [List.flatMap_cons, List.length_append, List.length_cons]
        omega
  induction l with
  | nil => simp
  | cons a l ih =>
      have hcount := congrArg List.length h
      simp only [List.map_cons, List.flatMap_cons, List.length_append, List.length_cons,
        List.length_map] at hcount
      have hrest := hlength l
      have hnil : g a = [] := by
        rw [← List.length_eq_zero_iff]
        omega
      intro a' ha'
      rcases List.mem_cons.mp ha' with rfl | ha'
      · exact hnil
      · refine ih ?_ a' ha'
        rw [List.map_cons, List.flatMap_cons, hnil] at h
        exact (List.cons.inj h).2

/-- A quiet wake survives; so does no other whose outputs control nothing. -/
theorem wake_survives (input : WakeInput) (h : Legible input) :
    (Quiet input → Survives input) ∧ (Uncontrolled input → Survives input → Quiet input) := by
  constructor
  · intro hquiet
    unfold Survives
    rw [parseWake_uncontrolled h hquiet.states hquiet.control]
    have hread : ∀ step ∈ input.settled,
        step.read = [{ title := step.title, state := step.state }] := by
      intro step hstep
      unfold SettledStep.read
      rw [List.filterMap_eq_nil_iff.mpr (hquiet.unread step hstep)]
    rw [List.flatMap_congr hread, ← List.map_eq_flatMap]
  · intro hcontrol hsurvives
    have hstates : ∀ step ∈ input.settled, Word step.state := by
      intro step hstep
      unfold Survives at hsurvives
      rw [parseWake_envelope, Option.some.injEq] at hsurvives
      have hword : ∀ step ∈ (readLines none input.summary
          (input.body.flatMap (·.splitOn newline))).settled, Word step.state :=
        word_of_readLines (by simp [WakeInput.summary])
      rw [hsurvives] at hword
      exact hword _ (List.mem_map_of_mem hstep)
    unfold Survives at hsurvives
    rw [parseWake_uncontrolled h hstates hcontrol, Option.some.injEq, WakeSummary.mk.injEq]
      at hsurvives
    refine ⟨hstates, hcontrol, ?_⟩
    intro step hstep
    exact List.filterMap_eq_nil_iff.mp (nothing_more hsurvives.2.2.2.1.symm step hstep)

/-- A wake that reports one step with some output, and one that is still out. -/
def reported (output : Text) : WakeInput where
  runId := ofString "task-1"
  task := some (ofString "Fix the \"banner\"")
  phase := some (ofString "Verify")
  phaseNumber := some 1
  phaseCount := some 2
  isLastPhase := false
  wakes := 2
  maxWakes := 12
  settled := [{
    title := ofString "Reproduce (once): the bug"
    category := ofString "test"
    state := ofString "succeeded"
    output
    sessionId := ofString "worker-1" }]
  running := [{
    title := ofString "Write the fix"
    category := ofString "implement"
    sessionId := ofString "worker-2" }]
  numbered := fun _ => rfl

theorem legible_reported (output : Text) : Legible (reported output) where
  settled := by
    have htitle : Titled (ofString "Reproduce (once): the bug") := ⟨by decide, by decide⟩
    have hcategory : Parenthesized (ofString "test") := by
      unfold Parenthesized
      decide
    have hsession : Parenthesized (ofString "worker-1") := by
      unfold Parenthesized
      decide
    intro step hstep
    rw [List.mem_singleton.mp hstep]
    exact ⟨htitle, hcategory, hsession⟩
  running := by
    have htitle : Titled (ofString "Write the fix") := ⟨by decide, by decide⟩
    have hcategory : Parenthesized (ofString "implement") := by
      unfold Parenthesized
      decide
    have hsession : Parenthesized (ofString "worker-2") := by
      unfold Parenthesized
      decide
    intro step hstep
    rw [List.mem_singleton.mp hstep]
    exact ⟨htitle, hcategory, hsession⟩

theorem wake_survives_reported : Survives (reported (ofString "It reproduces.")) := by
  refine (wake_survives _ (legible_reported _)).1 ⟨?_, ?_, ?_⟩
  · intro step hstep
    rw [List.mem_singleton.mp hstep]
    exact ⟨by decide, by decide⟩
  · intro step hstep
    rw [List.mem_singleton.mp hstep]
    decide +kernel
  · intro step hstep
    rw [List.mem_singleton.mp hstep]
    decide +kernel

/-- A list in an output, one of whose items ends in a colon and a word, is read as a step. -/
theorem wake_output_settles :
    Legible (reported (ofString "Findings:\n- parser: broken")) ∧
      ¬Survives (reported (ofString "Findings:\n- parser: broken")) := by
  refine ⟨legible_reported _, ?_⟩
  unfold Survives
  decide +kernel

end FleetWake

end CopilotFleet
