import CopilotFleet.Lib.JsonString
import CopilotFleet.Lib.Occurrences

/-!
# The Envelope of a Local Agent's Words

What a local agent asks of an orchestrator arrives in its conversation as one
envelope, with the caller's words between two markers. An orchestrator reads
the envelope as one request of one agent, so nothing the caller chooses may end
the quoted region or the envelope before they do.

The words themselves are rewritten where they would close a marker. The name of
the task and the label of the client are not: they stand in the first line as
JSON strings, and JSON quotes what it quotes with the markers unchanged. So the
envelope is sealed exactly where these have no closing marker in them.

## Main definitions

* `localAgentEnvelope`: The envelope.
* `replaced`: The caller's words, with each match of the expression replaced.
* `neutral`: What they are meant to become.
* `Sealed`: No marker is closed but at the end, and the words stand between them.
* `Unmarked`: No closing marker stands in any other field.

## Theorems

* `replaced_eq_neutral`: The global replacement is the one at every marker.
* `occurrences_neutral`: No marker is closed by what is replaced.
* `occurrences_escape`: A JSON string has the markers of what it quotes.
* `localAgentEnvelope_sealed_iff`: When the envelope is sealed.
-/

namespace CopilotFleet

open Utf16 JsonString Occurrences

namespace LocalAgent

/-! ### Markers -/

def less : UInt16 := 0x3C

def solidus : UInt16 := 0x2F

def newline : UInt16 := 0x0A

/-- Letters that are compared without regard to case. Others have no case that
    the comparison knows of. -/
def lower (u : UInt16) : UInt16 := if 0x41 ≤ u ∧ u ≤ 0x5A then u + 0x20 else u

/-- An element of a pattern in lower case and one of a text. -/
def caseless (c u : UInt16) : Bool := c = lower u

def textName : Text := ofString "local-agent-text"

def requestName : Text := ofString "fleet-local-agent-request"

def openText : Text := ofString "<local-agent-text>"

def closeText : Text := ofString "</local-agent-text>"

def closeRequest : Text := ofString "</fleet-local-agent-request>"

/-- How often a text closes a marker. -/
def closings (marker text : Text) : Nat := occurrences caseless marker text

/-! ### The envelope -/

/-- `/<\/(local-agent-text|fleet-local-agent-request)/i`, at one position: how long
    the match is. -/
def marked (text : Text) : Option Nat :=
  if begins caseless (less :: solidus :: textName) text then some (textName.length + 2)
  else if begins caseless (less :: solidus :: requestName) text then some (requestName.length + 2)
  else none

/-- `replace` of every match by the same with a backslash in it. The number is what is
    left of a match, in which no other one is looked for. -/
def replaced : Nat → Text → Text
  | _, [] => []
  | n + 1, u :: rest => u :: replaced n rest
  | 0, u :: rest =>
      match marked (u :: rest) with
      | some n => less :: backslash :: replaced (n - 1) rest
      | none => u :: replaced 0 rest

inductive Intent where
  | question
  | guidance
deriving DecidableEq

def Intent.name : Intent → Text
  | .question => ofString "question"
  | .guidance => ofString "guidance"

def isHex (u : UInt16) : Bool :=
  0x30 ≤ u && u ≤ 0x39 || 0x41 ≤ u && u ≤ 0x46 || 0x61 ≤ u && u ≤ 0x66

def dash : UInt16 := 0x2D

/-- Five groups of hexadecimal digits. -/
def isUuid (text : Text) : Bool :=
  text.length = 36 &&
    text.zipIdx.all fun (u, i) => if i ∈ [8, 13, 18, 23] then u = dash else isHex u

structure EnvelopeInput where
  operationId : Text
  uuid : isUuid operationId = true
  taskId : Text
  taskName : Text
  intent : Intent
  text : Text
  clientLabel : Option Text := none

/-- Something between quotes, as it is. -/
def inQuotes (text : Text) : Text := quote :: (text ++ [quote])

def EnvelopeInput.client (input : EnvelopeInput) : Text :=
  match input.clientLabel with
  | some label => if label = [] then [] else ofString " client=" ++ stringify label
  | none => []

def EnvelopeInput.header (input : EnvelopeInput) : Text :=
  ofString "<fleet-local-agent-request id=" ++ inQuotes input.operationId ++
    ofString " taskId=" ++ stringify input.taskId ++
    ofString " task=" ++ stringify input.taskName ++
    ofString " intent=" ++ inQuotes input.intent.name ++
    ofString " source=" ++ inQuotes (ofString "local-agent") ++
    (input.client ++ ofString ">")

def onBehalf : Text :=
  ofString "The operator's local assistant sent this through the local agent API, on the operator's behalf. Treat it as the operator asking, the same as a message typed in this conversation."

def aboutTask (taskId : Text) : Text :=
  ofString "It is about task " ++ inQuotes taskId ++
    ofString ". Read it with fleet_get_task using that exact ID before you act."

def Intent.advice : Intent → Text
  | .question => ofString "This is a question. Answer from the task's record when that is enough. If it needs fresh facts, gather them: reopen the task with fleet_reopen_task if it is closed or awaiting review, and dispatch the work it takes."
  | .guidance => ofString "This is guidance. Act on it: if the task is closed or awaiting review, reopen it with fleet_reopen_task, then plan and dispatch the work."

/-- The lines before the caller's words. -/
def EnvelopeInput.preamble (input : EnvelopeInput) : List Text :=
  [input.header, onBehalf, aboutTask input.taskId, input.intent.advice]

def localAgentEnvelope (input : EnvelopeInput) : Text :=
  [newline].intercalate
    (input.preamble ++ [openText, replaced 0 input.text, closeText, closeRequest])

/-! ### What it is to be sealed -/

/-- A backslash in every closing marker. -/
def neutral : Text → Text
  | [] => []
  | u :: rest =>
      if (marked (u :: rest)).isSome then u :: backslash :: neutral rest else u :: neutral rest

/-- No marker is closed but by the last two lines, and the caller's words stand between
    the first line that opens the region and the first of these. -/
structure Sealed (text envelope : Text) : Prop where
  text_once : closings closeText envelope = 1
  request_once : closings closeRequest envelope = 1
  region : ∃ before,
    envelope = [newline].intercalate [before, openText, neutral text, closeText, closeRequest] ∧
      openText ∉ before.splitOn newline

/-- No marker is closed by any other field, and no line of the task's id opens the region: its
    first and its last one stand in a sentence. -/
structure Unmarked (input : EnvelopeInput) : Prop where
  taskId : closings closeText input.taskId = 0 ∧ closings closeRequest input.taskId = 0
  taskName : closings closeText input.taskName = 0 ∧ closings closeRequest input.taskName = 0
  clientLabel : ∀ label ∈ input.clientLabel,
    closings closeText label = 0 ∧ closings closeRequest label = 0
  line : openText ∉ (input.taskId.splitOn newline).tail.dropLast

/-! ### The units of the markers -/

theorem closeText_eq : closeText =
      [0x3C, 0x2F, 0x6C, 0x6F, 0x63, 0x61, 0x6C, 0x2D, 0x61, 0x67, 0x65, 0x6E, 0x74, 0x2D, 0x74,
      0x65, 0x78, 0x74, 0x3E] := by
  simp [closeText, ofString, units]

theorem closeRequest_eq : closeRequest =
      [0x3C, 0x2F, 0x66, 0x6C, 0x65, 0x65, 0x74, 0x2D, 0x6C, 0x6F, 0x63, 0x61, 0x6C, 0x2D, 0x61,
      0x67, 0x65, 0x6E, 0x74, 0x2D, 0x72, 0x65, 0x71, 0x75, 0x65, 0x73, 0x74, 0x3E] := by
  simp [closeRequest, ofString, units]

theorem openText_eq : openText =
      [0x3C, 0x6C, 0x6F, 0x63, 0x61, 0x6C, 0x2D, 0x61, 0x67, 0x65, 0x6E, 0x74, 0x2D, 0x74, 0x65,
      0x78, 0x74, 0x3E] := by
  simp [openText, ofString, units]

theorem textName_eq : textName =
      [0x6C, 0x6F, 0x63, 0x61, 0x6C, 0x2D, 0x61, 0x67, 0x65, 0x6E, 0x74, 0x2D, 0x74, 0x65, 0x78,
      0x74] := by
  simp [textName, ofString, units]

theorem requestName_eq : requestName =
      [0x66, 0x6C, 0x65, 0x65, 0x74, 0x2D, 0x6C, 0x6F, 0x63, 0x61, 0x6C, 0x2D, 0x61, 0x67, 0x65,
      0x6E, 0x74, 0x2D, 0x72, 0x65, 0x71, 0x75, 0x65, 0x73, 0x74] := by
  simp [requestName, ofString, units]

theorem requestOpen_eq : ofString "<fleet-local-agent-request id=" =
      [0x3C, 0x66, 0x6C, 0x65, 0x65, 0x74, 0x2D, 0x6C, 0x6F, 0x63, 0x61, 0x6C, 0x2D, 0x61, 0x67,
      0x65, 0x6E, 0x74, 0x2D, 0x72, 0x65, 0x71, 0x75, 0x65, 0x73, 0x74, 0x20, 0x69, 0x64, 0x3D] := by
  simp [ofString, units]

set_option maxRecDepth 4000

/-! ### The caller's words -/

theorem marked_isSome {text : Text} (h : (marked text).isSome = true) :
    begins caseless (less :: solidus :: textName) text = true ∨
      begins caseless (less :: solidus :: requestName) text = true := by
  unfold marked at h
  by_cases htext : begins caseless (less :: solidus :: textName) text = true
  · exact .inl htext
  · by_cases hrequest : begins caseless (less :: solidus :: requestName) text = true
    · exact .inr hrequest
    · rw [if_neg htext, if_neg hrequest] at h
      cases h

theorem caseless_less {u : UInt16} (h : caseless less u = true) : u = less := by
  unfold caseless lower at h
  rw [decide_eq_true_iff] at h
  split at h
  · rename_i hup
    -- A capital letter is not what it would have to be.
    have hle := UInt16.le_iff_toNat_le.mp hup.1
    have hle' := UInt16.le_iff_toNat_le.mp hup.2
    have hsum := congrArg UInt16.toNat h
    rw [UInt16.toNat_add] at hsum
    simp only [less, UInt16.reduceToNat] at hle hle' hsum
    omega
  · exact h.symm

theorem head_of_marked {u : UInt16} {rest : Text} (h : (marked (u :: rest)).isSome = true) :
    u = less := by
  have hhead : caseless less u = true := by
    rcases marked_isSome h with h | h
    · rw [begins, Bool.and_eq_true] at h
      exact h.1
    · rw [begins, Bool.and_eq_true] at h
      exact h.1
  exact caseless_less hhead

/-- No other match begins within one. -/
theorem plain_of_marked {u : UInt16} {rest : Text} {n : Nat} (h : marked (u :: rest) = some n) :
    less ∉ rest.take (n - 1) := by
  have hcase : ∀ name : Text, (∀ c ∈ solidus :: name, caseless c less = false) →
      begins caseless (less :: solidus :: name) (u :: rest) = true →
      less ∉ rest.take (name.length + 2 - 1) := by
    intro name hname hbegins hmem
    rw [begins, Bool.and_eq_true] at hbegins
    rcases same_of_begins hbegins.2 less hmem with ⟨c, hc, hsame⟩
    rw [hname c hc] at hsame
    cases hsame
  unfold marked at h
  by_cases htext : begins caseless (less :: solidus :: textName) (u :: rest) = true
  · rw [if_pos htext] at h
    rw [← Option.some.inj h]
    exact hcase textName (by rw [textName_eq]; decide) htext
  · by_cases hrequest : begins caseless (less :: solidus :: requestName) (u :: rest) = true
    · rw [if_neg htext, if_pos hrequest] at h
      rw [← Option.some.inj h]
      exact hcase requestName (by rw [requestName_eq]; decide) hrequest
    · rw [if_neg htext, if_neg hrequest] at h
      cases h

/-- The global replacement is the one at every marker. -/
theorem replaced_eq_neutral {n : Nat} {text : Text} (h : less ∉ text.take n) :
    replaced n text = neutral text := by
  induction text generalizing n with
  | nil => cases n <;> rfl
  | cons u rest ih =>
      cases n with
      | zero =>
          cases hmarked : marked (u :: rest) with
          | none =>
              rw [replaced, neutral, hmarked]
              exact congrArg _ (ih List.not_mem_nil)
          | some n =>
              have hu := head_of_marked (by rw [hmarked]; rfl)
              rw [replaced, neutral, hmarked]
              change less :: backslash :: replaced (n - 1) rest = u :: backslash :: neutral rest
              rw [hu, ih (plain_of_marked hmarked)]
      | succ n =>
          rw [List.take_succ_cons, List.mem_cons, not_or] at h
          have hno : ¬(marked (u :: rest)).isSome = true :=
            fun hmarked => h.1 (head_of_marked hmarked).symm
          rw [replaced, neutral, if_neg hno, ih h.2]

/-- What begins with no marker's first letter begins the same before it is replaced. -/
theorem begins_of_neutral {word text : Text} (hword : ∀ c ∈ word, caseless c less = false)
    (h : begins caseless word (neutral text) = true) : begins caseless word text = true := by
  induction word generalizing text with
  | nil => rfl
  | cons c rest ih =>
      cases text with
      | nil => cases h
      | cons u text =>
          have hrest := fun d hd => hword d (List.mem_cons_of_mem c hd)
          unfold neutral at h
          by_cases hmarked : (marked (u :: text)).isSome = true
          · rw [if_pos hmarked, begins, head_of_marked hmarked, hword c List.mem_cons_self] at h
            cases h
          · rw [if_neg hmarked, begins, Bool.and_eq_true] at h
            rw [begins, h.1, ih hrest h.2]
            rfl

/-- No marker is closed by what is replaced. -/
theorem occurrences_neutral {name : Text} (hname : ∀ c ∈ solidus :: name, caseless c less = false)
    (hmarked : ∀ text, begins caseless (less :: solidus :: name) text = true →
      (marked text).isSome = true) (text : Text) :
    occurrences caseless (less :: solidus :: name) (neutral text) = 0 := by
  induction text with
  | nil => rfl
  | cons u rest ih =>
      unfold neutral
      by_cases hu : (marked (u :: rest)).isSome = true
      · -- The backslash stands where the solidus would have to.
        have hslash : begins caseless (less :: solidus :: name) (u :: backslash :: neutral rest) =
            false := by
          have hno : caseless solidus backslash = false := by decide
          rw [begins, begins, hno, Bool.false_and, Bool.and_false]
        have hslash' : begins caseless (less :: solidus :: name) (backslash :: neutral rest) =
            false := by
          have hno : caseless less backslash = false := by decide
          rw [begins, hno, Bool.false_and]
        rw [if_pos hu, occurrences, occurrences, hslash, hslash', ih]
        rfl
      · have hno : begins caseless (less :: solidus :: name) (u :: neutral rest) = false := by
          rw [Bool.eq_false_iff]
          intro hbegins
          rw [begins, Bool.and_eq_true] at hbegins
          refine hu (hmarked _ ?_)
          rw [begins, hbegins.1, begins_of_neutral hname hbegins.2]
          rfl
        rw [if_neg hu, occurrences, hno, ih]
        rfl

/-! ### Quoted strings -/

/-- A unit that is written as it is, in lower case. -/
def isLiteral (c : UInt16) : Bool := 0x23 ≤ c && c ≤ 0x7A && c ≠ backslash

theorem literal_of_caseless {c u : UInt16} (hc : isLiteral c = true) (h : caseless c u = true) :
    escapeUnit u = [u] ∧ isHigh u = false ∧ isLow u = false := by
  simp only [isLiteral, Bool.and_eq_true, decide_eq_true_eq] at hc
  have hrange : 0x23 ≤ u.toNat ∧ u.toNat ≤ 0x7A ∧ u.toNat ≠ 0x5C := by
    unfold caseless lower at h
    rw [decide_eq_true_iff] at h
    have hlow := UInt16.le_iff_toNat_le.mp hc.1.1
    have hup := UInt16.le_iff_toNat_le.mp hc.1.2
    have hne : c.toNat ≠ 0x5C := fun hc' => hc.2 (UInt16.toNat.inj hc')
    simp only [UInt16.reduceToNat] at hlow hup
    split at h
    · rename_i hcap
      have hle := UInt16.le_iff_toNat_le.mp hcap.1
      have hle' := UInt16.le_iff_toNat_le.mp hcap.2
      simp only [UInt16.reduceToNat] at hle hle'
      omega
    · rw [← h]
      exact ⟨hlow, hup, hne⟩
  have hne : ∀ v : UInt16, v.toNat < 0x23 ∨ v.toNat = 0x5C → u ≠ v := by
    rintro v hv rfl
    omega
  have hhigh : isHigh u = false := by
    unfold isHigh
    simp only [Bool.and_eq_false_iff, decide_eq_false_iff_not]
    omega
  have hlow : isLow u = false := by
    unfold isLow
    simp only [Bool.and_eq_false_iff, decide_eq_false_iff_not]
    omega
  refine ⟨?_, hhigh, hlow⟩
  have hctl : ¬u < 0x20 := by
    rw [UInt16.lt_iff_toNat_lt]
    simp only [UInt16.reduceToNat]
    omega
  unfold escapeUnit shortEscape
  simp [hne 0x08 (by decide), hne 0x09 (by decide), hne 0x0A (by decide), hne 0x0C (by decide),
    hne 0x0D (by decide), hne quote (by decide), hne backslash (by decide), hctl, hhigh, hlow]

theorem escape_literal {u : UInt16} (hu : escapeUnit u = [u]) (hhigh : isHigh u = false)
    (rest : Text) : escape (u :: rest) = u :: escape rest := by
  cases rest with
  | nil => exact hu
  | cons v rest =>
      rw [escape, hhigh, Bool.false_and, hu]
      rfl

/-- What is written for a unit is the unit, or it starts with a backslash. -/
theorem escape_head (u : UInt16) (rest : Text) :
    ∃ v tail, escape (u :: rest) = v :: tail ∧ (v = u ∨ v = backslash) := by
  have hunit : ∃ v tail, escapeUnit u = v :: tail ∧ (v = u ∨ v = backslash) := by
    unfold escapeUnit
    cases shortEscape u with
    | some letter => exact ⟨backslash, [letter], rfl, .inr rfl⟩
    | none =>
        simp only []
        split
        · exact ⟨backslash, _, rfl, .inr rfl⟩
        · exact ⟨u, [], rfl, .inl rfl⟩
  cases rest with
  | nil => exact hunit
  | cons v rest =>
      rw [escape]
      split
      · exact ⟨u, _, rfl, .inl rfl⟩
      · rcases hunit with ⟨w, tail, hw, hor⟩
        exact ⟨w, tail ++ escape (v :: rest), by rw [hw]; rfl, hor⟩

theorem begins_escape {word : Text} (hword : ∀ c ∈ word, isLiteral c = true) (text : Text) :
    begins caseless word (escape text) = begins caseless word text := by
  induction word generalizing text with
  | nil => rfl
  | cons c rest ih =>
      cases text with
      | nil => rfl
      | cons u text =>
          have hc := hword c List.mem_cons_self
          have hrest := fun d hd => hword d (List.mem_cons_of_mem c hd)
          by_cases hsame : caseless c u = true
          · have hu := literal_of_caseless hc hsame
            rw [escape_literal hu.1 hu.2.1, begins, begins, ih hrest]
          · rw [Bool.not_eq_true] at hsame
            rcases escape_head u text with ⟨v, tail, hescape, hv⟩
            have hno : caseless c v = false := by
              rcases hv with rfl | rfl
              · exact hsame
              · rw [Bool.eq_false_iff]
                intro hslash
                have h := (literal_of_caseless hc hslash).1
                exact absurd h (by decide)
            rw [hescape, begins, begins, hno, hsame, Bool.false_and, Bool.false_and]

/-- A unit is written as it is, or without the first letter of a marker. -/
theorem escapeUnit_cases (u : UInt16) :
    escapeUnit u = [u] ∨ (∀ v ∈ escapeUnit u, caseless less v = false) ∧
      caseless less u = false := by
  by_cases hself : escapeUnit u = [u]
  · exact .inl hself
  · refine .inr ⟨?_, ?_⟩
    · have hhex : ∀ n, n < 16 → caseless less (hexDigit n) = false := by decide
      have hu : u.toNat < 65536 := u.toNat_lt
      unfold escapeUnit at hself ⊢
      cases hshort : shortEscape u with
      | some letter =>
          intro v hv
          rcases List.mem_cons.mp hv with rfl | hv
          · decide
          · rw [List.mem_singleton.mp hv]
            unfold shortEscape at hshort
            repeat' split at hshort
            all_goals first
              | (cases hshort; decide)
              | cases hshort
      | none =>
          rw [hshort] at hself
          simp only [] at hself ⊢
          split
          · intro v hv
            simp only [hexUnit, List.mem_cons, List.not_mem_nil, or_false] at hv
            rcases hv with rfl | rfl | rfl | rfl | rfl | rfl
            · decide
            · decide
            · exact hhex _ (by omega)
            · exact hhex _ (by omega)
            · exact hhex _ (by omega)
            · exact hhex _ (by omega)
          · rename_i hlow
            rw [if_neg hlow] at hself
            exact absurd rfl hself
    · rw [Bool.eq_false_iff]
      intro hless
      exact hself (literal_of_caseless (by decide) hless).1

/-- A JSON string has the markers of what it quotes. -/
theorem occurrences_escape {name : Text} (hname : ∀ c ∈ less :: name, isLiteral c = true)
    (text : Text) : occurrences caseless (less :: name) (escape text) =
      occurrences caseless (less :: name) text := by
  have hcons : ∀ (u : UInt16) (rest : Text),
      occurrences caseless (less :: name) (escape rest) =
        occurrences caseless (less :: name) rest →
      occurrences caseless (less :: name) (u :: escape rest) =
        occurrences caseless (less :: name) (u :: rest) := by
    intro u rest ih
    rw [occurrences, occurrences, begins, begins,
      begins_escape fun c hc => hname c (List.mem_cons_of_mem less hc), ih]
  fun_induction escape text with
  | case1 => rfl
  | case2 u =>
      rcases escapeUnit_cases u with hu | ⟨hrun, hu⟩
      · rw [hu]
      · rw [occurrences_eq_zero hrun, occurrences_eq_zero]
        intro v hv
        rw [List.mem_singleton.mp hv]
        exact hu
  | case3 u v rest hpair ih =>
      rw [Bool.and_eq_true] at hpair
      -- A surrogate is not a letter.
      have hrun : ∀ w ∈ [u, v], caseless less w = false := by
        intro w hw
        rw [Bool.eq_false_iff]
        intro hless
        have hw' := literal_of_caseless (by decide) hless
        rcases List.mem_cons.mp hw with rfl | hw
        · rw [hw'.2.1] at hpair
          exact absurd hpair.1 Bool.false_ne_true
        · rw [← List.mem_singleton.mp hw, hw'.2.2] at hpair
          exact absurd hpair.2 Bool.false_ne_true
      have hskip : ∀ text, occurrences caseless (less :: name) ([u, v] ++ text) =
          occurrences caseless (less :: name) text := occurrences_skip hrun
      have h := hskip (escape rest)
      have h' := hskip rest
      exact h.trans (ih.trans h'.symm)
  | case4 u v rest _ ih =>
      rcases escapeUnit_cases u with hu | ⟨hrun, hno⟩
      · rw [hu]
        change occurrences caseless (less :: name) (u :: escape (v :: rest)) = _
        exact hcons u (v :: rest) ih
      · have hplain : ∀ w ∈ [u], caseless less w = false := by
          intro w hw
          rw [List.mem_singleton.mp hw]
          exact hno
        have hskip : ∀ text, occurrences caseless (less :: name) ([u] ++ text) =
            occurrences caseless (less :: name) text := occurrences_skip hplain
        rw [occurrences_skip hrun, ih]
        exact (hskip (v :: rest)).symm

/-! ### The envelope is sealed -/

/-- One of the two closing markers. -/
def IsClosing (marker : Text) : Prop := marker = closeText ∨ marker = closeRequest

theorem IsClosing.split {marker : Text} (h : IsClosing marker) :
    ∃ name, marker = less :: solidus :: name ∧
      (∀ c ∈ less :: solidus :: name, isLiteral c = true) ∧
      (∀ c ∈ solidus :: name, caseless c less = false) ∧
      ∀ text, begins caseless (less :: solidus :: name) text = true →
        (marked text).isSome = true := by
  rcases h with rfl | rfl
  · refine ⟨textName ++ [0x3E], ?_, ?_, ?_, fun text hbegins => ?_⟩
    · rw [closeText_eq, textName_eq]
      rfl
    · rw [textName_eq]
      decide
    · rw [textName_eq]
      decide
    · have hname : begins caseless (less :: solidus :: textName) text = true :=
        begins_of_append hbegins
      unfold marked
      rw [if_pos hname]
      rfl
  · refine ⟨requestName ++ [0x3E], ?_, ?_, ?_, fun text hbegins => ?_⟩
    · rw [closeRequest_eq, requestName_eq]
      rfl
    · rw [requestName_eq]
      decide
    · rw [requestName_eq]
      decide
    · have hname : begins caseless (less :: solidus :: requestName) text = true :=
        begins_of_append hbegins
      unfold marked
      rw [if_pos hname]
      split <;> rfl

variable {marker : Text}

theorem closings_replaced (h : IsClosing marker) (text : Text) :
    closings marker (replaced 0 text) = 0 := by
  rcases h.split with ⟨name, rfl, -, hname, hmarked⟩
  rw [closings, replaced_eq_neutral List.not_mem_nil]
  exact occurrences_neutral hname hmarked text

theorem closings_escape (h : IsClosing marker) (text : Text) :
    closings marker (escape text) = closings marker text := by
  rcases h.split with ⟨name, rfl, hliteral, -, -⟩
  exact occurrences_escape hliteral text

/-- What stands between quotes is counted for itself. -/
theorem closings_inQuotes (h : IsClosing marker) (a text b : Text) :
    closings marker (a ++ inQuotes text ++ b) =
      closings marker a + closings marker text + closings marker b := by
  have hne : marker ≠ [] := by
    rcases h.split with ⟨name, rfl, -⟩
    exact List.cons_ne_nil _ _
  have hquote : ∀ c ∈ marker, caseless c quote = false := by
    rcases h with rfl | rfl
    · rw [closeText_eq]
      decide
    · rw [closeRequest_eq]
      decide
  have hsplit : a ++ inQuotes text ++ b = a ++ quote :: (text ++ quote :: b) := by
    simp [inQuotes]
  unfold closings
  rw [hsplit, occurrences_append_cons hne hquote, occurrences_append_cons hne hquote]
  omega

theorem closings_stringify (h : IsClosing marker) (a text b : Text) :
    closings marker (a ++ stringify text ++ b) =
      closings marker a + closings marker text + closings marker b := by
  rw [← closings_escape h text]
  exact closings_inQuotes h a (escape text) b

/-- A literal without the first letter of a marker closes nothing. -/
theorem closings_plain (h : IsClosing marker) {letters : List Char}
    (hs : less.toNat ∉ letters.map Char.toNat) : closings marker (ofString (String.ofList letters)) = 0 := by
  rcases h.split with ⟨name, rfl, -⟩
  refine occurrences_eq_zero fun u hu => ?_
  rw [Bool.eq_false_iff]
  intro hless
  have hmem : less ∉ ofString (String.ofList letters) := not_mem_ofString (by decide) hs
  exact hmem (caseless_less hless ▸ hu)

/-- Five groups of digits close nothing. -/
theorem closings_uuid (h : IsClosing marker) (input : EnvelopeInput) :
    closings marker input.operationId = 0 := by
  rcases h.split with ⟨name, rfl, -, -, -⟩
  refine occurrences_eq_zero fun u hu => ?_
  rw [Bool.eq_false_iff]
  intro hless
  have hu' := caseless_less hless
  have huuid := input.uuid
  rw [isUuid, Bool.and_eq_true] at huuid
  rcases List.mem_iff_getElem.mp hu with ⟨i, hi, hget⟩
  have hmem : (u, i) ∈ input.operationId.zipIdx := by
    rw [List.mem_zipIdx_iff_getElem?, List.getElem?_eq_getElem hi, hget]
  have hgroup := List.all_eq_true.mp huuid.2 (u, i) hmem
  rw [hu'] at hgroup
  simp only at hgroup
  split at hgroup
  · exact absurd hgroup (by decide)
  · exact absurd hgroup (by decide)

theorem closings_client (h : IsClosing marker) (input : EnvelopeInput) :
    closings marker (input.client ++ ofString ">") =
      closings marker (input.clientLabel.getD []) := by
  have hend : closings marker (ofString ">") = 0 := closings_plain h (by decide)
  have hclient : closings marker (ofString " client=") = 0 := closings_plain h (by decide)
  unfold EnvelopeInput.client
  cases input.clientLabel with
  | none => exact hend
  | some label =>
      by_cases hlabel : label = []
      · rw [hlabel]
        exact hend
      · simp only [if_neg hlabel]
        rw [closings_stringify h, hclient, hend, Nat.zero_add]
        rfl

theorem closings_header (h : IsClosing marker) (input : EnvelopeInput) :
    closings marker input.header = closings marker input.taskId + closings marker input.taskName +
      closings marker (input.clientLabel.getD []) := by
  have hid : closings marker (ofString "<fleet-local-agent-request id=") = 0 := by
    rw [requestOpen_eq]
    rcases h with rfl | rfl
    · rw [closeText_eq]
      decide
    · rw [closeRequest_eq]
      decide
  have htaskId : closings marker (ofString " taskId=") = 0 := closings_plain h (by decide)
  have htask : closings marker (ofString " task=") = 0 := closings_plain h (by decide)
  have hintent : closings marker (ofString " intent=") = 0 := closings_plain h (by decide)
  have hsource : closings marker (ofString " source=") = 0 := closings_plain h (by decide)
  have hagent : closings marker (ofString "local-agent") = 0 := closings_plain h (by decide)
  have hname : closings marker input.intent.name = 0 := by
    cases input.intent with
    | question => exact closings_plain h (by decide)
    | guidance => exact closings_plain h (by decide)
  unfold EnvelopeInput.header
  rw [closings_inQuotes h, closings_inQuotes h, closings_stringify h, closings_stringify h,
    closings_inQuotes h, closings_uuid h, closings_client h, hid, htaskId, htask, hintent, hsource,
    hagent, hname]
  omega

theorem closings_aboutTask (h : IsClosing marker) (taskId : Text) :
    closings marker (aboutTask taskId) = closings marker taskId := by
  have hbefore : closings marker (ofString "It is about task ") = 0 := closings_plain h (by decide)
  have hbehind : closings marker
      (ofString ". Read it with fleet_get_task using that exact ID before you act.") = 0 :=
    closings_plain h (by decide)
  unfold aboutTask
  rw [closings_inQuotes h, hbefore, hbehind]
  omega

theorem sum_eight (f : Text → Nat) (a b c d e g i j : Text) :
    (([a, b, c, d] ++ [e, g, i, j]).map f).sum =
      f a + (f b + (f c + (f d + (f e + (f g + (f i + (f j + 0))))))) := rfl

/-- Every closing marker of the envelope is one of a field, or one of the last two lines. -/
theorem closings_envelope (h : IsClosing marker) (input : EnvelopeInput) :
    closings marker (localAgentEnvelope input) =
      2 * closings marker input.taskId + closings marker input.taskName +
        closings marker (input.clientLabel.getD []) + 1 := by
  have hne : marker ≠ [] := by
    rcases h.split with ⟨name, rfl, -⟩
    exact List.cons_ne_nil _ _
  have hnewline : ∀ c ∈ marker, caseless c newline = false := by
    rcases h with rfl | rfl
    · rw [closeText_eq]
      decide
    · rw [closeRequest_eq]
      decide
  have hbehalf : closings marker onBehalf = 0 := closings_plain h (by decide)
  have hadvice : closings marker input.intent.advice = 0 := by
    cases input.intent with
    | question => exact closings_plain h (by decide)
    | guidance => exact closings_plain h (by decide)
  have hopen : closings marker openText = 0 := by
    rw [openText_eq]
    rcases h with rfl | rfl
    · rw [closeText_eq]
      decide
    · rw [closeRequest_eq]
      decide
  have hclose : closings marker closeText + closings marker closeRequest = 1 := by
    rcases h with rfl | rfl
    · rw [closeText_eq, closeRequest_eq]
      decide
    · rw [closeText_eq, closeRequest_eq]
      decide
  have hsum : closings marker (localAgentEnvelope input) = closings marker input.header +
      (closings marker onBehalf + (closings marker (aboutTask input.taskId) +
        (closings marker input.intent.advice + (closings marker openText +
          (closings marker (replaced 0 input.text) + (closings marker closeText +
            (closings marker closeRequest + 0))))))) :=
    (occurrences_intercalate hne hnewline _).trans (sum_eight (closings marker) ..)
  rw [closings_header h input, hbehalf, closings_aboutTask h input.taskId, hadvice, hopen,
    closings_replaced h input.text, Nat.add_zero, hclose] at hsum
  rw [hsum]
  omega

/-! ### The lines before the region -/

theorem splitOn_newline {line : Text} (hline : newline ∉ line) (rest : Text) :
    (line ++ newline :: rest).splitOn newline = line :: rest.splitOn newline := by
  have hplain : ∀ u ∈ line, (u == newline) = false := by
    intro u hu
    rw [beq_eq_false_iff_ne]
    intro h
    exact hline (h ▸ hu)
  rw [List.splitOn_eq_splitOnP,
    List.splitOnP_append_cons_of_forall_mem hplain newline (beq_self_eq_true newline),
    ← List.splitOn_eq_splitOnP]

theorem newline_not_mem {letters : List Char}
    (hs : newline.toNat ∉ letters.map Char.toNat) : newline ∉ ofString (String.ofList letters) :=
  not_mem_ofString (by decide) hs

theorem not_mem_stringify (text : Text) : newline ∉ stringify text := by
  intro hmem
  rcases List.mem_cons.mp hmem with hquote | hmem
  · exact absurd hquote (by decide)
  · rcases List.mem_append.mp hmem with hmem | hmem
    · exact absurd (escape_printable hmem) (by decide)
    · exact absurd (List.mem_singleton.mp hmem) (by decide)

theorem not_mem_uuid (input : EnvelopeInput) : newline ∉ input.operationId := by
  intro hmem
  have huuid := input.uuid
  rw [isUuid, Bool.and_eq_true] at huuid
  rcases List.mem_iff_getElem.mp hmem with ⟨i, hi, hget⟩
  have hzip : (newline, i) ∈ input.operationId.zipIdx := by
    rw [List.mem_zipIdx_iff_getElem?, List.getElem?_eq_getElem hi, hget]
  have hgroup := List.all_eq_true.mp huuid.2 (newline, i) hzip
  simp only at hgroup
  split at hgroup
  · exact absurd hgroup (by decide)
  · exact absurd hgroup (by decide)

theorem not_mem_header (input : EnvelopeInput) : newline ∉ input.header := by
  have hclient : newline ∉ input.client := by
    unfold EnvelopeInput.client
    cases input.clientLabel with
    | none => exact List.not_mem_nil
    | some label =>
        by_cases hlabel : label = []
        · simp only [if_pos hlabel]
          exact List.not_mem_nil
        · simp only [if_neg hlabel, List.mem_append, not_or]
          exact ⟨newline_not_mem (by decide), not_mem_stringify label⟩
  have hname : newline ∉ input.intent.name := by
    cases input.intent with
    | question => exact newline_not_mem (by decide)
    | guidance => exact newline_not_mem (by decide)
  unfold EnvelopeInput.header inQuotes
  simp only [List.mem_append, List.mem_cons, List.not_mem_nil, or_false, not_or]
  have hquote : newline ≠ quote := by decide
  refine ⟨⟨⟨⟨⟨⟨⟨⟨⟨⟨?_, ?_⟩, ?_⟩, ?_⟩, ?_⟩, ?_⟩, ?_⟩, ?_⟩, ?_⟩, ?_⟩, hclient, ?_⟩
  · exact newline_not_mem (by decide)
  · exact ⟨hquote, not_mem_uuid input, hquote⟩
  · exact newline_not_mem (by decide)
  · exact not_mem_stringify input.taskId
  · exact newline_not_mem (by decide)
  · exact not_mem_stringify input.taskName
  · exact newline_not_mem (by decide)
  · exact ⟨hquote, hname, hquote⟩
  · exact newline_not_mem (by decide)
  · exact ⟨hquote, newline_not_mem (by decide), hquote⟩
  · exact newline_not_mem (by decide)

/-- A line that opens the region is no literal without its first letter. -/
theorem openText_ne {letters : List Char}
    (hs : less.toNat ∉ letters.map Char.toNat) : openText ≠ ofString (String.ofList letters) := by
  intro h
  have hmem : less ∈ openText := by
    rw [openText_eq]
    exact List.mem_cons_self
  exact not_mem_ofString (by decide) hs (h ▸ hmem)

theorem splitOn_last {line : Text} (hline : newline ∉ line) (text : Text) :
    (text ++ newline :: line).splitOn newline = text.splitOn newline ++ [line] := by
  have hplain : ∀ u ∈ line, (u == newline) = false := by
    intro u hu
    rw [beq_eq_false_iff_ne]
    intro h
    exact hline (h ▸ hu)
  rw [List.splitOn_eq_splitOnP,
    List.splitOnP_append_cons (p := (· == newline)) _ _ (beq_self_eq_true newline),
    List.splitOnP_eq_singleton hplain, ← List.splitOn_eq_splitOnP]

/-- A text has one line, or two, or some between its first and its last. -/
theorem lines_cases (text : Text) :
    newline ∉ text ∨ (∃ a b, text = a ++ newline :: b ∧ newline ∉ a ∧ newline ∉ b) ∨
      ∃ a between b, text = a ++ newline :: (between ++ newline :: b) ∧ newline ∉ a ∧
        newline ∉ b := by
  by_cases hone : newline ∈ text
  · rcases List.eq_append_cons_of_mem hone with ⟨a, rest, htext, ha⟩
    by_cases htwo : newline ∈ rest
    · rcases List.eq_append_cons_of_mem (List.mem_reverse.mpr htwo) with ⟨b, between, hrest, hb⟩
      refine .inr (.inr ⟨a, between.reverse, b.reverse, ?_, ha, ?_⟩)
      · rw [htext, ← List.reverse_reverse rest, hrest]
        simp
      · rw [List.mem_reverse]
        exact hb
    · exact .inr (.inl ⟨a, rest, htext, ha, htwo⟩)
  · exact .inl hone

/-- What stands around a text changes its first and its last line. -/
theorem mem_splitOn_between {line before after : Text} (hbefore : newline ∉ before)
    (hafter : newline ∉ after) (hfirst : ∀ t, line ≠ before ++ t) (hlast : ∀ t, line ≠ t ++ after)
    (text : Text) :
    line ∈ (before ++ text ++ after).splitOn newline ↔
      line ∈ (text.splitOn newline).tail.dropLast := by
  have hnot {a b : Text} (ha : newline ∉ a) (hb : newline ∉ b) : newline ∉ a ++ b := by
    rw [List.mem_append, not_or]
    exact ⟨ha, hb⟩
  have hsingle {t : Text} (ht : newline ∉ t) : t.splitOn newline = [t] := by
    have hplain : ∀ u ∈ t, (u == newline) = false := by
      intro u hu
      rw [beq_eq_false_iff_ne]
      intro h
      exact ht (h ▸ hu)
    rw [List.splitOn_eq_splitOnP, List.splitOnP_eq_singleton hplain]
  rcases lines_cases text with hnone | ⟨a, b, rfl, ha, hb⟩ | ⟨a, between, b, rfl, ha, hb⟩
  · rw [hsingle (hnot (hnot hbefore hnone) hafter), hsingle hnone]
    simp only [List.mem_singleton, List.tail_cons, List.dropLast_nil, List.not_mem_nil, iff_false]
    rw [List.append_assoc]
    exact hfirst _
  · have hsentence : before ++ (a ++ newline :: b) ++ after =
        (before ++ a) ++ newline :: (b ++ after) := by
      simp
    rw [hsentence, splitOn_newline (hnot hbefore ha), hsingle (hnot hb hafter),
      splitOn_newline ha, hsingle hb]
    simp [hfirst, hlast]
  · have hsentence : before ++ (a ++ newline :: (between ++ newline :: b)) ++ after =
        (before ++ a) ++ newline :: (between ++ newline :: (b ++ after)) := by
      simp
    rw [hsentence, splitOn_newline (hnot hbefore ha), splitOn_last (hnot hb hafter),
      splitOn_newline ha, splitOn_last hb]
    simp [hfirst, hlast]

/-- Of four texts that are joined only the third has more lines than one. -/
theorem mem_splitOn_joined {line a b c d : Text} (ha : newline ∉ a ∧ line ≠ a)
    (hb : newline ∉ b ∧ line ≠ b) (hd : newline ∉ d ∧ line ≠ d) :
    line ∈ ([newline].intercalate [a, b, c, d]).splitOn newline ↔ line ∈ c.splitOn newline := by
  have hjoined : [newline].intercalate [a, b, c, d] =
      a ++ newline :: (b ++ newline :: (c ++ newline :: d)) := by
    simp
  rw [hjoined, splitOn_newline ha.1, splitOn_newline hb.1, splitOn_last hd.1]
  simp [ha.2, hb.2, hd.2]

theorem intercalate_joined (a b c d : Text) (rest : List Text) (hrest : rest ≠ []) :
    [newline].intercalate ([a, b, c, d] ++ rest) =
      [newline].intercalate ([newline].intercalate [a, b, c, d] :: rest) := by
  cases rest with
  | nil => exact absurd rfl hrest
  | cons e rest => simp

/-- In the sentence about the task, a line that opens the region is one of the task's id. -/
theorem openText_mem_aboutTask (taskId : Text) :
    openText ∈ (aboutTask taskId).splitOn newline ↔
      openText ∈ (taskId.splitOn newline).tail.dropLast := by
  have hsentence : aboutTask taskId = (ofString "It is about task " ++ [quote]) ++ taskId ++
      (quote :: ofString ". Read it with fleet_get_task using that exact ID before you act.") := by
    unfold aboutTask inQuotes
    simp
  rw [hsentence]
  have hquote : newline ≠ quote := by decide
  refine mem_splitOn_between ?_ ?_ (fun t h => ?_) (fun t h => ?_) taskId
  · rw [List.mem_append, List.mem_singleton, not_or]
    exact ⟨newline_not_mem (by decide), hquote⟩
  · rw [List.mem_cons, not_or]
    exact ⟨hquote, newline_not_mem (by decide)⟩
  · -- The marker has no quote in it.
    have hmem : quote ∈ openText := by
      rw [h]
      simp
    rw [openText_eq] at hmem
    exact absurd hmem (by decide)
  · have hmem : quote ∈ openText := by
      rw [h]
      simp
    rw [openText_eq] at hmem
    exact absurd hmem (by decide)

/-- The region is opened early only by a line of the task's id. -/
theorem openText_mem_preamble (input : EnvelopeInput) :
    openText ∈ ([newline].intercalate input.preamble).splitOn newline ↔
      openText ∈ (input.taskId.splitOn newline).tail.dropLast := by
  rw [← openText_mem_aboutTask]
  have hadvice : newline ∉ input.intent.advice ∧ openText ≠ input.intent.advice := by
    cases input.intent with
    | question => exact ⟨newline_not_mem (by decide), openText_ne (by decide)⟩
    | guidance => exact ⟨newline_not_mem (by decide), openText_ne (by decide)⟩
  have hheader : openText ≠ input.header := by
    -- They differ in their second letter.
    intro h
    unfold EnvelopeInput.header at h
    rw [openText_eq, requestOpen_eq] at h
    simp only [List.cons_append] at h
    exact absurd (List.head_eq_of_cons_eq (List.tail_eq_of_cons_eq h)) (by decide)
  have hbehalf : newline ∉ onBehalf ∧ openText ≠ onBehalf :=
    ⟨newline_not_mem (by decide), openText_ne (by decide)⟩
  exact mem_splitOn_joined ⟨not_mem_header input, hheader⟩ hbehalf hadvice

theorem localAgentEnvelope_split (input : EnvelopeInput) :
    localAgentEnvelope input = [newline].intercalate
      [[newline].intercalate input.preamble, openText, neutral input.text, closeText,
        closeRequest] := by
  unfold localAgentEnvelope
  rw [replaced_eq_neutral List.not_mem_nil]
  exact intercalate_joined _ _ _ _ _ (List.cons_ne_nil _ _)

/-- **When the envelope is sealed.** The closing markers end it and stand nowhere else,
    and the caller's words stand between the markers, exactly where no other field
    closes a marker and the task's id does not open the region by a line of its own. -/
theorem localAgentEnvelope_sealed_iff (input : EnvelopeInput) :
    Sealed input.text (localAgentEnvelope input) ↔ Unmarked input := by
  have htext := closings_envelope (.inl rfl) input
  have hrequest := closings_envelope (.inr rfl) input
  constructor
  · rintro ⟨htextOnce, hrequestOnce, before, hbefore, hline⟩
    rw [htext] at htextOnce
    rw [hrequest] at hrequestOnce
    have hlabel : ∀ label ∈ input.clientLabel, input.clientLabel.getD [] = label := by
      intro label hmem
      rw [Option.mem_def.mp hmem]
      rfl
    refine ⟨⟨by omega, by omega⟩, ⟨by omega, by omega⟩, fun label hmem => ?_, ?_⟩
    · rw [hlabel label hmem] at htextOnce hrequestOnce
      exact ⟨by omega, by omega⟩
    · -- What is before the region is what the code wrote there.
      rw [localAgentEnvelope_split] at hbefore
      simp only [List.intercalate_cons_cons] at hbefore
      simp only [List.append_assoc] at hbefore
      have heq := List.append_cancel_right hbefore
      rw [← heq] at hline
      exact fun hmem => hline ((openText_mem_preamble input).mpr hmem)
  · rintro ⟨htaskId, htaskName, hclient, hline⟩
    have hlabel : closings closeText (input.clientLabel.getD []) = 0 ∧
        closings closeRequest (input.clientLabel.getD []) = 0 := by
      cases hcase : input.clientLabel with
      | none => exact ⟨rfl, rfl⟩
      | some label => exact hclient label hcase
    refine ⟨?_, ?_, _, localAgentEnvelope_split input, ?_⟩
    · rw [htext, htaskId.1, htaskName.1, hlabel.1]
    · rw [hrequest, htaskId.2, htaskName.2, hlabel.2]
    · exact fun hmem => hline ((openText_mem_preamble input).mp hmem)

theorem closingId_eq : ofString "3f0c2a44-5b7d-4e21-9c1e-0d2b6a7f8c90" =
      [0x33, 0x66, 0x30, 0x63, 0x32, 0x61, 0x34, 0x34, 0x2D, 0x35, 0x62, 0x37, 0x64, 0x2D, 0x34,
      0x65, 0x32, 0x31, 0x2D, 0x39, 0x63, 0x31, 0x65, 0x2D, 0x30, 0x64, 0x32, 0x62, 0x36, 0x61,
      0x37, 0x66, 0x38, 0x63, 0x39, 0x30] := by
  simp [ofString, units]

theorem closingId_uuid : isUuid (ofString "3f0c2a44-5b7d-4e21-9c1e-0d2b6a7f8c90") = true := by
  rw [closingId_eq]
  decide

/-- A question about a task whose name closes the envelope. -/
def closingName : EnvelopeInput where
  operationId := ofString "3f0c2a44-5b7d-4e21-9c1e-0d2b6a7f8c90"
  uuid := closingId_uuid
  taskId := ofString "8d1f6c1e-2f3a-4b5c-9d7e-1a2b3c4d5e6f"
  taskName := closeRequest
  intent := .question
  text := ofString "How far is it?"

/-- The name of a task closes the envelope in its first line. -/
theorem not_sealed_closingName : ¬Sealed closingName.text (localAgentEnvelope closingName) := by
  intro h
  have hname : closings closeRequest closingName.taskName = 1 := by
    change closings closeRequest closeRequest = 1
    rw [closeRequest_eq]
    decide
  have honce := h.request_once
  rw [closings_envelope (.inr rfl), hname] at honce
  omega

end LocalAgent

end CopilotFleet
