import CopilotFleet.Protocol.HeartbeatSchedule
import Mathlib.Algebra.Order.Floor.Ring
import Mathlib.Data.Rat.Floor
import Mathlib.Order.Bounds.Basic
import Mathlib.Tactic.Linarith

/-!
# The Quiet Window

Something that was handled a moment ago is not looked at again at once. The
next heartbeat for it is the first scheduled time that is not inside its quiet
window, and how long that is depends on the time itself: half the gap to the
one after it, but not less than five minutes and not more than thirty
(`quietWindow`). So a time may count where a later one does not.

The search goes on from time to time and stops at the first that counts. Two
times are at least a minute apart and thirty minutes are enough for any of
them, so it takes far fewer turns than its guard allows (`loop_spec`).

A schedule is what its `next` answers, for an arbitrary set of times.

## Main definitions

* `nextHeartbeat`: The first scheduled time outside the quiet window.
* `Scheduled`: What `next` has to do with the times of a schedule.
* `Fresh`: The times outside the quiet window.

## Theorems

* `nextHeartbeat_spec`: The search finds the least of them, or there is none.
* `nextHeartbeat_law`: Its bounds, when there is one, and that it is monotone.
-/

namespace CopilotFleet

namespace Heartbeat

/-- How long after it was handled something counts as handled. -/
def heartbeatQuietMs : Rat := 30 * 60000

/-- A short schedule's quiet window is not shorter than this. -/
def heartbeatMinQuietMs : Rat := 5 * 60000

/-- What has to have passed before a slot counts, by the slot that follows it. -/
def quietWindow (slot : Rat) : Option Rat → Rat
  | none => heartbeatQuietMs
  | some following => min heartbeatQuietMs (max heartbeatMinQuietMs ((following - slot) / 2))

/-- The loop of `nextHeartbeat`, from a slot on. -/
def heartbeatLoop (next : Rat → Option Rat) (since : Rat) : Nat → Option Rat → Option Rat
  | 0, _ => none
  | _ + 1, none => none
  | guard + 1, some slot =>
      let following := next slot
      if quietWindow slot following ≤ slot - since then some slot
      else heartbeatLoop next since guard following

/-- The first heartbeat that counts as a fresh look for something last handled at `since`: the
    next scheduled time, unless that falls inside the quiet window, in which case the first one
    after it that does not. -/
def nextHeartbeat (next : Rat → Option Rat) (since : Rat) : Option Rat :=
  heartbeatLoop next since 10000 (next since)

/-- The next time is the least of a set of minutes that is strictly after the one asked for. -/
structure Scheduled (next : Rat → Option Rat) (times : Set Rat) : Prop where
  minutes : ∀ t ∈ times, ∃ minute : Int, t = ((minute * 60000 : Int) : Rat)
  found : ∀ after t, next after = some t → IsLeast {s ∈ times | after < s} t
  missing : ∀ after, next after = none → ∀ s ∈ times, s ≤ after

/-- The scheduled times after the last look that are not inside the quiet window. -/
def Fresh (next : Rat → Option Rat) (times : Set Rat) (since : Rat) : Set Rat :=
  {t ∈ times | since < t ∧ quietWindow t (next t) ≤ t - since}

theorem quietWindow_le (slot : Rat) (following : Option Rat) :
    quietWindow slot following ≤ heartbeatQuietMs := by
  cases following with
  | none => exact le_refl _
  | some following => exact min_le_left _ _

theorem le_quietWindow (slot : Rat) (following : Option Rat) :
    heartbeatMinQuietMs ≤ quietWindow slot following := by
  have hle : heartbeatMinQuietMs ≤ heartbeatQuietMs := by decide +kernel
  cases following with
  | none => exact hle
  | some following => exact le_min hle (le_max_left _ _)

section Search

variable {next : Rat → Option Rat} {times : Set Rat}

/-- Two scheduled times are a minute apart or more. -/
theorem Scheduled.apart (h : Scheduled next times) {s t : Rat} (hs : s ∈ times) (ht : t ∈ times)
    (hlt : s < t) : s + 60000 ≤ t := by
  rcases h.minutes s hs with ⟨m, rfl⟩
  rcases h.minutes t ht with ⟨n, rfl⟩
  rw [Rat.intCast_lt_intCast] at hlt
  have hle : m * 60000 + 60000 ≤ n * 60000 := by omega
  exact_mod_cast hle

/-- Thirty minutes are enough for any scheduled time. -/
theorem mem_fresh_of_le {since t : Rat} (ht : t ∈ times) (hle : since + heartbeatQuietMs ≤ t) :
    t ∈ Fresh next times since := by
  have hpos : 0 < heartbeatQuietMs := by decide +kernel
  have hwindow := quietWindow_le t (next t)
  exact ⟨ht, by linarith, by linarith⟩

/-- From a slot on that no fresh time is before, and with enough turns left for thirty minutes,
    the loop finds the least fresh time. -/
theorem loop_spec (h : Scheduled next times) {since : Rat} (turns : Nat) {slot : Rat}
    (hslot : slot ∈ times) (hafter : since < slot)
    (hbehind : ∀ t ∈ Fresh next times since, slot ≤ t)
    (hturns : since + heartbeatQuietMs ≤ slot + turns * 60000) :
    match heartbeatLoop next since (turns + 1) (some slot) with
    | none => ∀ t, t ∉ Fresh next times since
    | some s => IsLeast (Fresh next times since) s := by
  induction turns generalizing slot with
  | zero =>
      have hfresh : slot ∈ Fresh next times since := mem_fresh_of_le hslot (by simpa using hturns)
      rw [heartbeatLoop, if_pos hfresh.2.2]
      exact ⟨hfresh, hbehind⟩
  | succ turns ih =>
      rw [heartbeatLoop]
      by_cases hquiet : quietWindow slot (next slot) ≤ slot - since
      · rw [if_pos hquiet]
        exact ⟨⟨hslot, hafter, hquiet⟩, hbehind⟩
      · rw [if_neg hquiet]
        -- A fresh time is not the slot itself, so it is one of those behind it.
        have hlater : ∀ t ∈ Fresh next times since, slot < t := by
          intro t ht
          rcases lt_or_eq_of_le (hbehind t ht) with hlt | rfl
          · exact hlt
          · exact absurd ht.2.2 hquiet
        cases hnext : next slot with
        | none =>
            rw [heartbeatLoop]
            intro t ht
            exact absurd (h.missing slot hnext t ht.1) (not_le.mpr (hlater t ht))
        | some following =>
            rcases h.found slot following hnext with ⟨⟨hmem, hlt⟩, hleast⟩
            have hgap := h.apart hslot hmem hlt
            refine ih hmem (hafter.trans hlt) (fun t ht => hleast ⟨ht.1, hlater t ht⟩) ?_
            push_cast at hturns
            linarith

/-- The search finds the least time outside the quiet window, or there is none. -/
theorem nextHeartbeat_spec (h : Scheduled next times) (since : Rat) :
    match nextHeartbeat next since with
    | none => ∀ t, t ∉ Fresh next times since
    | some s => IsLeast (Fresh next times since) s := by
  rw [nextHeartbeat]
  cases hnext : next since with
  | none =>
      rw [heartbeatLoop]
      intro t ht
      exact absurd (h.missing since hnext t ht.1) (not_le.mpr ht.2.1)
  | some slot =>
      rcases h.found since slot hnext with ⟨⟨hmem, hlt⟩, hleast⟩
      refine loop_spec h 9999 hmem hlt (fun t ht => hleast ⟨ht.1, ht.2.1⟩) ?_
      have hguard : heartbeatQuietMs ≤ ((9999 : Nat) : Rat) * 60000 := by decide +kernel
      linarith

/-- Where a time is outside the quiet window, the search finds one that is not later. -/
theorem nextHeartbeat_of_fresh (h : Scheduled next times) {since t : Rat}
    (ht : t ∈ Fresh next times since) : ∃ s ≤ t, nextHeartbeat next since = some s := by
  have hspec := nextHeartbeat_spec h since
  cases hfound : nextHeartbeat next since with
  | none =>
      rw [hfound] at hspec
      exact absurd ht (hspec t)
  | some s =>
      rw [hfound] at hspec
      exact ⟨s, hspec.2 ht, rfl⟩

/-- What was fresh for a later look is fresh for an earlier one. -/
theorem fresh_earlier {since later t : Rat} (hle : since ≤ later)
    (ht : t ∈ Fresh next times later) : t ∈ Fresh next times since :=
  ⟨ht.1, lt_of_le_of_lt hle ht.2.1, ht.2.2.trans (by linarith)⟩

/-- The next heartbeat is the least scheduled time after the last look from which at least its
    quiet window has passed, and at least five minutes after it; there is one, not later than
    any scheduled time thirty minutes after the last look or more, wherever there is such a
    time; and for an earlier look it is not later. -/
theorem nextHeartbeat_law (h : Scheduled next times) (since : Rat) :
    (∀ s, nextHeartbeat next since = some s →
      IsLeast {t ∈ times | since < t ∧ quietWindow t (next t) ≤ t - since} s ∧
        since + heartbeatMinQuietMs ≤ s) ∧
    (∀ t ∈ times, since + heartbeatQuietMs ≤ t → ∃ s ≤ t, nextHeartbeat next since = some s) ∧
    (∀ later s, since ≤ later → nextHeartbeat next later = some s →
      ∃ t ≤ s, nextHeartbeat next since = some t) := by
  refine ⟨?_, ?_, ?_⟩
  · intro s hs
    have hspec := nextHeartbeat_spec h since
    rw [hs] at hspec
    have hquiet := hspec.1.2.2
    have hmin := le_quietWindow s (next s)
    exact ⟨hspec, by linarith⟩
  · intro t ht hle
    exact nextHeartbeat_of_fresh h (mem_fresh_of_le ht hle)
  · intro later s hle hs
    have hspec := nextHeartbeat_spec h later
    rw [hs] at hspec
    exact nextHeartbeat_of_fresh h (fresh_earlier hle hspec.1)

end Search

/-- The next full hour. -/
def hourly (after : Rat) : Option Rat := some ((((after / 3600000).floor + 1) * 3600000 : Int) : Rat)

theorem hourly_scheduled :
    Scheduled hourly {t | ∃ hour : Int, t = ((hour * 3600000 : Int) : Rat)} := by
  have hlt : ∀ (after : Rat) (hour : Int),
      after < ((hour * 3600000 : Int) : Rat) ↔ (after / 3600000).floor + 1 ≤ hour := by
    intro after hour
    rw [Int.add_one_le_iff, Rat.floor_lt_iff, div_lt_iff₀ (by norm_num)]
    push_cast
    exact Iff.rfl
  refine ⟨?_, ?_, ?_⟩
  · rintro t ⟨hour, rfl⟩
    exact ⟨hour * 60, by push_cast; ring⟩
  · intro after t ht
    cases ht
    refine ⟨⟨⟨_, rfl⟩, (hlt after _).mpr (le_refl _)⟩, ?_⟩
    rintro s ⟨⟨hour, rfl⟩, hs⟩
    have hle := (hlt after hour).mp hs
    exact_mod_cast Int.mul_le_mul_of_nonneg_right hle (by decide)
  · intro after ht
    cases ht

/-- Twenty minutes before the hour the hour is inside the quiet window, and the next heartbeat
    is the one after it. -/
theorem nextHeartbeat_law_hourly :
    nextHeartbeat hourly (40 * 60000) = some (2 * 3600000) ∧
    (∀ s, nextHeartbeat hourly (40 * 60000) = some s →
      IsLeast {t | t ∈ {t | ∃ hour : Int, t = ((hour * 3600000 : Int) : Rat)} ∧
        40 * 60000 < t ∧ quietWindow t (hourly t) ≤ t - 40 * 60000} s ∧
          40 * 60000 + heartbeatMinQuietMs ≤ s) :=
  ⟨by decide +kernel, (nextHeartbeat_law hourly_scheduled (40 * 60000)).1⟩

end Heartbeat

end CopilotFleet
