import CopilotFleet.Host.CommandVerification
import CopilotFleet.Lib.Pages

/-!
# Pages of Command Output

The output of a command is read in pages. A page holds the events past a cursor
that fit, and its own cursor is the sequence of the last of them, moved past
every gap that begins right after it. A reader asks from there on while there
is more.

A gap says what the Node has lost, or what the Host could not keep. Nothing
stops a gap from covering an event that is stored: the Node may report as lost
what it has sent before, and a tail in too many pieces is made one gap. On a
page such an event is shown all the same. Where a page ends right before such a
gap the cursor moves past it, and the events in it are shown on no page.

## Main definitions

* `State.page`: Some of the output, and the cursor to go on from.
* `State.readOutput`: What a reader gets who goes on while there is more.
* `State.output`: The events that are stored of a command.
* `Execution.Separates`: No gap that touches the one sequence reaches the other.
* `Core.Stamped`: Events are stored under their own sequence.

## Theorems

* `State.page_eq`: A page is a page of the stored events.
* `State.readOutput_iff`: What a reader misses is what a gap covers at a cut.
* `pages_return_output`: In every run, pages return all output exactly when no
  gap covers the start of a page.
-/

namespace CopilotFleet

namespace Commands

open Utf16

structure CommandExecutionPage where
  execution : Execution
  events : List OutputEvent
  nextSeq : Nat
  hasMore : Bool
  outputComplete : Bool

/-- The number of bytes of an event. -/
def OutputEvent.bytes (event : OutputEvent) : Nat := decodedLength event.data

def State.page (s : State) (id afterSeq limitBytes : Nat) :
    Except Failure CommandExecutionPage :=
  match s.execution id with
  | none => .error (.conflict (ofString "execution_not_found"))
  | some execution =>
      let rows := (((s.sequences id).filter fun n => afterSeq < n).take 513).filterMap fun n =>
        s.db.events.get (id, n)
      let events := Pages.fit OutputEvent.bytes limitBytes 512 0 0 rows
      if rows ≠ [] ∧ events = [] then .error (.conflict (ofString "page_limit_too_small"))
      else
        let last := match events.getLast? with
          | some event => event.sequence
          | none => afterSeq
        .ok
          { execution
            events
            nextSeq := Ranges.skip execution.gaps last
            hasMore := Decidable.decide (events.length < rows.length)
            outputComplete := execution.outputComplete }

/-- What of a page a reader goes by. -/
def CommandExecutionPage.read (page : CommandExecutionPage) : Pages.Page OutputEvent :=
  { items := page.events
    next := page.nextSeq
    more := page.hasMore }

/-- What a reader gets who begins at 0 and goes on while there is more. -/
def State.readOutput (s : State) (id limitBytes fuel : Nat) : Option (List OutputEvent) :=
  Pages.walk (fun after => (s.page id after limitBytes).map CommandExecutionPage.read) fuel 0

/-- The events that are stored of a command, in order. -/
def State.output (s : State) (id : Nat) : List OutputEvent :=
  (s.sequences id).filterMap fun n => s.db.events.get (id, n)

/-- No gap that begins right after the one sequence, or before, reaches the other. -/
def Execution.Separates (execution : Execution) (a b : Nat) : Prop :=
  ∀ gap ∈ execution.gaps, gap.first ≤ a + 1 → gap.last < b

instance (execution : Execution) (a b : Nat) : Decidable (execution.Separates a b) :=
  inferInstanceAs (Decidable (∀ gap ∈ execution.gaps, gap.first ≤ a + 1 → gap.last < b))

/-- The stored events are cut into pages by their size. At every cut no gap
    that touches the last sequence of a page reaches the first of the next. -/
def Execution.SeparatesPages (execution : Execution) (limitBytes : Nat)
    (events : List OutputEvent) : Prop :=
  Pages.Clear OutputEvent.sequence OutputEvent.bytes limitBytes 512 execution.Separates 0 0 0 events

instance (execution : Execution) (limitBytes : Nat) (events : List OutputEvent) :
    Decidable (execution.SeparatesPages limitBytes events) :=
  inferInstanceAs (Decidable (Pages.Clear _ _ _ _ _ _ _ _ _))

/-! ### Stored events -/

/-- Events are stored under their own sequence. -/
def Core.Stamped (c : Core) : Prop :=
  ∀ id n event, c.events (id, n) = some event → event.sequence = n ∧ 0 < n

theorem Move.stamped {careful : Prop} {c c' : Core} (h : c.Stamped) (hmove : Move careful c c') :
    c'.Stamped := by
  cases hmove with
  | append e e' event c₁ row absent stored output flagged positive =>
      subst stored
      intro id n other hother
      change Function.update c.events (e.id, event.sequence) (some event) (id, n) = some other
        at hother
      by_cases hkey : (id, n) = (e.id, event.sequence)
      · rw [hkey, Function.update_self, Option.some.injEq] at hother
        rw [Prod.mk.injEq] at hkey
        rw [← hother, hkey.2]
        exact ⟨rfl, positive⟩
      · rw [Function.update_of_ne hkey] at hother
        exact h id n other hother
  | sweep id ended =>
      intro id' n event hevent
      change (if id' = id then none else c.events (id', n)) = some event at hevent
      by_cases hid : id' = id
      · rw [if_pos hid] at hevent
        cases hevent
      · rw [if_neg hid] at hevent
        exact h id' n event hevent
  | start e e' now sent row queued wanted alone unfenced made once =>
      change (c.begun e' now).Stamped
      unfold Core.Stamped
      rw [Core.begun_events]
      exact h
  | settle e e' receipt now now' row heard ended said known flagged =>
      unfold Core.Stamped
      rw [Core.released_events]
      exact h
  | _ => exact h

theorem reached_keyed (inputs : List (World × Op)) : (reached inputs).core.Keyed :=
  (reached_invariant (I := fun _ => True) trivial (fun _ _ _ _ _ => trivial) inputs).1

theorem reached_stamped (inputs : List (World × Op)) : (reached inputs).core.Stamped :=
  (reached_invariant (I := Core.Stamped) (fun _ _ _ h => nomatch h)
    (fun _ _ _ h hmove => hmove.stamped h) inputs).2

/-- The sequences of a command are distinct and in order. -/
theorem State.sequences_sorted (s : State) (id : Nat) : (s.sequences id).Pairwise (· < ·) := by
  have hnodup : ((s.db.events.entries.filter fun row => row.1.1 = id).map (·.1.2)).Nodup := by
    have hkeys := s.db.events.nodup.sublist
      ((List.filter_sublist (p := fun row => row.1.1 = id)).map Prod.fst)
    have hpairs := hkeys.map_on (f := Prod.snd) fun x hx y hy hxy => by
      rcases List.mem_map.mp hx with ⟨a, ha, rfl⟩
      rcases List.mem_map.mp hy with ⟨b, hb, rfl⟩
      have hax := of_decide_eq_true (List.mem_filter.mp ha).2
      have hbx := of_decide_eq_true (List.mem_filter.mp hb).2
      exact Prod.ext (hax.trans hbx.symm) hxy
    rwa [List.map_map] at hpairs
  unfold State.sequences
  have hsorted := List.pairwise_insertionSort (· ≤ ·)
    ((s.db.events.entries.filter fun row => row.1.1 = id).map (·.1.2))
  have hdistinct := (List.perm_insertionSort (· ≤ ·) _).nodup_iff.mpr hnodup
  exact (hsorted.and hdistinct).imp fun hle => lt_of_le_of_ne hle.1 hle.2

/-- A stored event per sequence. -/
theorem State.output_sequences {s : State} (h : s.core.Stamped) (id : Nat) :
    (s.output id).map OutputEvent.sequence = s.sequences id := by
  have hstored : ∀ ns : List Nat, (∀ n ∈ ns, n ∈ s.sequences id) →
      (ns.filterMap fun n => s.db.events.get (id, n)).map OutputEvent.sequence = ns := by
    intro ns hns
    induction ns with
    | nil => rfl
    | cons n ns ih =>
        have hsome := (s.mem_sequences id n).mp (hns n List.mem_cons_self)
        rcases Option.isSome_iff_exists.mp hsome with ⟨event, hevent⟩
        rw [List.filterMap_cons_some (f := fun n => s.db.events.get (id, n)) hevent,
          List.map_cons, ih fun m hm => hns m (List.mem_cons_of_mem n hm), (h id n event hevent).1]
  exact hstored _ fun _ hn => hn

theorem State.output_sorted {s : State} (h : s.core.Stamped) (id : Nat) :
    (s.output id).Pairwise fun a b => a.sequence < b.sequence := by
  have hsorted := s.sequences_sorted id
  rw [← State.output_sequences h id, List.pairwise_map] at hsorted
  exact hsorted

theorem State.mem_output {s : State} (h : s.core.Stamped) (id : Nat) (event : OutputEvent) :
    event ∈ s.output id ↔ s.db.events.get (id, event.sequence) = some event := by
  unfold State.output
  rw [List.mem_filterMap]
  constructor
  · rintro ⟨n, _, hevent⟩
    rw [(h id n event hevent).1]
    exact hevent
  · intro hevent
    exact ⟨event.sequence, (s.mem_sequences id _).mpr (Option.isSome_iff_exists.mpr ⟨_, hevent⟩),
      hevent⟩

theorem State.output_positive {s : State} (h : s.core.Stamped) (id : Nat) :
    ∀ event ∈ s.output id, 0 < event.sequence :=
  fun event hevent => (h id _ event ((State.mem_output h id event).mp hevent)).2

/-! ### Pages -/

/-- The rows of a page are the stored events past the cursor. -/
theorem State.rows_eq {s : State} (h : s.core.Stamped) (id after : Nat) :
    (((s.sequences id).filter fun n => after < n).take 513).filterMap
        (fun n => s.db.events.get (id, n)) =
      ((s.output id).filter fun event => after < event.sequence).take 513 := by
  rw [← State.output_sequences h id, List.filter_map, ← List.map_take, List.filterMap_map]
  have hstored : ∀ events : List OutputEvent, (∀ event ∈ events, event ∈ s.output id) →
      events.filterMap ((fun n => s.db.events.get (id, n)) ∘ OutputEvent.sequence) = events := by
    intro events hevents
    induction events with
    | nil => rfl
    | cons event events ih =>
        have hevent := (State.mem_output h id event).mp (hevents event List.mem_cons_self)
        rw [List.filterMap_cons_some (show ((fun n => s.db.events.get (id, n)) ∘
          OutputEvent.sequence) event = some event from hevent),
          ih fun other hother => hevents other (List.mem_cons_of_mem event hother)]
  exact hstored _ fun event hevent => (List.mem_filter.mp (List.mem_of_mem_take hevent)).1

theorem lastKey_getLast (after : Nat) (events : List OutputEvent) :
    Pages.lastKey OutputEvent.sequence after events =
      match events.getLast? with
      | some event => event.sequence
      | none => after := by
  induction events generalizing after with
  | nil => rfl
  | cons event events ih =>
      rw [Pages.lastKey, ih, List.getLast?_cons]
      cases events.getLast? <;> rfl

/-- A page is a page of the stored events. -/
theorem State.page_eq {s : State} (h : s.core.Stamped) {id : Nat} {e : Execution}
    (hrow : s.execution id = some e) (limit after : Nat) :
    (s.page id after limit).map CommandExecutionPage.read =
      Pages.pageOf OutputEvent.sequence OutputEvent.bytes limit 512 (Ranges.skip e.gaps)
        (fun _ => .conflict (ofString "page_limit_too_small")) (s.output id) after := by
  unfold State.page
  rw [hrow]
  simp only [State.rows_eq h]
  unfold Pages.pageOf
  simp only [lastKey_getLast]
  generalize ((s.output id).filter fun event => after < event.sequence).take 513 = rows
  cases rows with
  | nil => rfl
  | cons event events =>
      cases hfit : Pages.fit OutputEvent.bytes limit 512 0 0 (event :: events) with
      | nil =>
          rw [if_pos ⟨by simp, rfl⟩]
          rfl
      | cons first others => simp [Except.map, CommandExecutionPage.read]

/-- A page is too small for a cursor when the event after it is too large. -/
theorem State.page_fits {s : State} (h : s.core.Stamped) {id : Nat} {e : Execution}
    (hrow : s.execution id = some e) (limit : Nat) :
    (∀ after, s.page id after limit ≠ .error (.conflict (ofString "page_limit_too_small"))) ↔
      ∀ event ∈ s.output id, event.bytes ≤ limit := by
  have herror : ∀ after, (s.page id after limit =
      .error (.conflict (ofString "page_limit_too_small"))) ↔
        ∃ event ∈ ((s.output id).filter fun event => after < event.sequence).head?,
          limit < event.bytes := by
    intro after
    have hread : ∀ failure, s.page id after limit = .error failure ↔
        (s.page id after limit).map CommandExecutionPage.read = .error failure := by
      intro failure
      cases s.page id after limit <;> simp [Except.map]
    rw [hread, State.page_eq h hrow, Pages.pageOf_error_iff (by omega)]
    simp only [and_true]
  constructor
  · -- An event that is too large comes first right after its own predecessor.
    intro hnever event hevent
    by_contra hlarge
    have hhead := Pages.head?_filter (State.output_sorted h id) hevent
      (State.output_positive h id event hevent)
    exact hnever (event.sequence - 1) ((herror _).mpr ⟨event, hhead, by omega⟩)
  · intro hfits after hsmall
    rcases (herror after).mp hsmall with ⟨event, hhead, hlarge⟩
    have hmem := List.mem_of_mem_head? hhead
    exact absurd (hfits event (List.mem_filter.mp hmem).1) (by omega)

/-- What a reader misses is what a gap covers at a cut. -/
theorem State.readOutput_iff {s : State} (h : s.core.Stamped) (hkeyed : s.core.Keyed) {id : Nat}
    {e : Execution} (hrow : s.execution id = some e) {limit : Nat}
    (hfits : ∀ event ∈ s.output id, event.bytes ≤ limit) :
    (∃ fuel, s.readOutput id limit fuel = some (s.output id)) ↔
      e.SeparatesPages limit (s.output id) := by
  have hpages : (fun after => (s.page id after limit).map CommandExecutionPage.read) =
      Pages.pageOf OutputEvent.sequence OutputEvent.bytes limit 512 (Ranges.skip e.gaps)
        (fun _ => .conflict (ofString "page_limit_too_small")) (s.output id) :=
    funext (State.page_eq h hrow limit)
  unfold State.readOutput
  rw [hpages, Pages.walk_iff (by omega) (Ranges.le_skip e.gaps) _ (State.output_sorted h id)
    (State.output_positive h id) hfits]
  exact Pages.clear_congr (fun a b hlt => Ranges.skip_lt_iff (hkeyed.gaps id e hrow).normal hlt)
    0 0 0 (State.output_sorted h id) (State.output_positive h id)

/-- In every state that is reached, the stored events of a command are in
    order and one per sequence. A reader whose pages are never too small gets
    all of them, and comes to an end, exactly when at every cut between two
    pages no gap that touches the last sequence of the one reaches the first
    sequence of the other. -/
theorem pages_return_output (inputs : List (World × Op)) (id limit : Nat) (e : Execution)
    (hrow : (reached inputs).execution id = some e)
    (hfits : ∀ after, (reached inputs).page id after limit ≠
      .error (.conflict (ofString "page_limit_too_small"))) :
    (((reached inputs).output id).Pairwise (fun a b => a.sequence < b.sequence) ∧
      ∀ event, event ∈ (reached inputs).output id ↔
        (reached inputs).db.events.get (id, event.sequence) = some event) ∧
      ((∃ fuel, (reached inputs).readOutput id limit fuel = some ((reached inputs).output id)) ↔
        e.SeparatesPages limit ((reached inputs).output id)) := by
  have hstamped := reached_stamped inputs
  have hlight := (State.page_fits hstamped hrow limit).mp hfits
  exact ⟨⟨State.output_sorted hstamped id, State.mem_output hstamped id⟩,
    State.readOutput_iff hstamped (reached_keyed inputs) hrow hlight⟩

/-- One byte of output. -/
def makeOutput (sequence : Nat) : OutputEvent where
  executionId := 0
  attemptId := 1
  sequence
  stderr := false
  data := ofString "AA=="
  «at» := 0

/-- A command runs and prints two bytes, and then its Node reports the second as lost. -/
def losingRun : List (World × Op) :=
  [(openWorld, .nodeReady (ofString "node") [executionCapability, durableCapability]
      (some { enabled := true, supported := true, shells := [ofString "bash"], admissionVersion })),
   (openWorld, .request (ofString "lead") makeCommand 0),
   (openWorld, .nodeMessage (ofString "node") (.prepared
      { executionId := 0, attemptId := 1, ok := true, error := none,
        descriptor := some
          { toPreparation := makePreparation, prepared := makePrepared,
            digest := .prepared makePreparation makePrepared } })),
   (openWorld, .nodeMessage (ofString "node") (.output (makeOutput 1))),
   (openWorld, .nodeMessage (ofString "node") (.output (makeOutput 2))),
   (openWorld, .nodeMessage (ofString "node") (.update { makeReceipt with
      state := .running
      ownership := .active
      exitCode := none
      outcomeKnown := false
      settledAt := none
      finalOutputSeq := none
      gaps := [{ first := 2, last := 2 }] }))]

theorem makeOutput_bytes (sequence : Nat) : (makeOutput sequence).bytes = 1 := by
  have hbytes : decodedLength (ofString "AA==") = 1 := by decide +kernel
  exact hbytes

theorem losingRun_row : ∃ e, (reached losingRun).execution 0 = some e ∧
    e.gaps = [{ first := 2, last := 2 }] :=
  Option.map_eq_some_iff.mp (show ((reached losingRun).execution 0).map (·.gaps) =
    some [{ first := 2, last := 2 }] by decide +kernel)

theorem losingRun_output : (reached losingRun).output 0 = [makeOutput 1, makeOutput 2] := by
  decide +kernel

theorem losingRun_fits {e : Execution} (hrow : (reached losingRun).execution 0 = some e)
    {limit : Nat} (hlimit : 0 < limit) (after : Nat) : (reached losingRun).page 0 after limit ≠
      .error (.conflict (ofString "page_limit_too_small")) := by
  refine (State.page_fits (reached_stamped _) hrow limit).mpr (fun event hevent => ?_) after
  rw [losingRun_output, List.mem_cons, List.mem_singleton] at hevent
  rcases hevent with rfl | rfl <;> rwa [makeOutput_bytes]

/-- Two bytes are cut apart when a page holds only one. -/
theorem separatesPages_two (e : Execution) {limit : Nat} (hlimit : 0 < limit) :
    e.SeparatesPages limit [makeOutput 1, makeOutput 2] ↔ (limit < 2 → e.Separates 1 2) := by
  have hfirst : Pages.full OutputEvent.bytes limit 512 0 0 (makeOutput 1) = false := by
    simp only [Pages.full, makeOutput_bytes]
    simp
    omega
  have hsecond : Pages.full OutputEvent.bytes limit 512 (0 + 1) (0 + 1) (makeOutput 2) =
      Decidable.decide (limit < 2) := by
    simp only [Pages.full, makeOutput_bytes]
    simp
  unfold Execution.SeparatesPages
  rw [Pages.Clear, hfirst, if_neg Bool.false_ne_true, makeOutput_bytes, Pages.Clear, hsecond]
  by_cases hone : limit < 2
  · rw [if_pos (decide_eq_true hone), Pages.Clear, and_true, forall_prop_of_true hone]
    rfl
  · rw [if_neg (by rwa [decide_eq_true_eq]), Pages.Clear]
    exact iff_of_true trivial fun hlt => absurd hlt hone

/-- Both bytes fit on one page, and no cut is there for the gap to cross. -/
theorem pages_return_output_two : ∃ fuel, (reached losingRun).readOutput 0 2 fuel =
    some ((reached losingRun).output 0) := by
  rcases losingRun_row with ⟨e, hrow, hgaps⟩
  refine (pages_return_output losingRun 0 2 e hrow (losingRun_fits hrow (by omega))).2.mpr ?_
  rw [losingRun_output, separatesPages_two e (by omega)]
  exact fun hone => absurd hone (by omega)

/-- Read byte by byte, the second is on no page: the first ends right before the gap. -/
theorem State.misses {s : State} (h : s.core.Stamped) (hkeyed : s.core.Keyed) {id : Nat}
    {e : Execution} (hrow : s.execution id = some e)
    (hgaps : e.gaps = [{ first := 2, last := 2 }])
    (houtput : s.output id = [makeOutput 1, makeOutput 2]) :
    ¬ ∃ fuel, s.readOutput id 1 fuel = some (s.output id) := by
  have hlight : ∀ event ∈ s.output id, event.bytes ≤ 1 := by
    intro event hevent
    rw [houtput, List.mem_cons, List.mem_singleton] at hevent
    rcases hevent with rfl | rfl <;> rw [makeOutput_bytes]
  rw [State.readOutput_iff h hkeyed hrow hlight, houtput, separatesPages_two e Nat.one_pos]
  intro hclear
  have hmem : { first := 2, last := 2 } ∈ e.gaps := by
    rw [hgaps]
    exact List.mem_cons_self
  exact absurd (hclear (by omega) _ hmem le_rfl) (lt_irrefl 2)

theorem pages_miss_output : ∃ inputs id limit e, (reached inputs).execution id = some e ∧
    (∀ after, (reached inputs).page id after limit ≠
      .error (.conflict (ofString "page_limit_too_small"))) ∧
      ¬ ∃ fuel, (reached inputs).readOutput id limit fuel = some ((reached inputs).output id) := by
  rcases losingRun_row with ⟨e, hrow, hgaps⟩
  have hfits := losingRun_fits hrow Nat.one_pos
  have hmisses := State.misses (reached_stamped losingRun) (reached_keyed losingRun) hrow hgaps
    losingRun_output
  exact ⟨losingRun, 0, 1, e, hrow, hfits, hmisses⟩

end Commands

end CopilotFleet
