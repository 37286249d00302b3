import CopilotFleet.Lib.Refusal
import CopilotFleet.Protocol.HeartbeatSchedule
import Mathlib.Data.Rat.Floor

/-!
# The Next Time of a Schedule

The search for the next time of a cron expression jumps: to the next month, the
next day, the next hour, or a later minute of the hour, whichever field it finds
not to match first. In a place whose local time is a fixed offset from UTC no
jump passes over a minute that matches, and every jump but one goes into a later
hour; the one that stays in its hour ends where the expression matches. So the
search is exact, and well within its guard.

Two things the platform does with dates bound this. A date beyond the range of
dates is no date, and from there the search creeps on minute by minute, which
the guard may cut short; nothing is missed, because nothing there is a date that
could match. And the years 0 to 99 cannot be written: `new Date(50, 0, 2)` is a
day of 1950, so a jump from the year 50 goes past everything.

Numbers are taken to be exact here. Inside the range of dates a double holds
every whole minute, and the quotient and the sum the search begins with are
rounded to no other one.

## Main definitions

* `fixedOffset`: Numbers and dates where local time is a fixed offset from UTC.
* `matchesAt`: Every field of an expression matches a minute.
* `runsOut`: The guard is what ends a search.
* `Fires`: A minute is a date, and an expression of the schedule matches it.
* `Next`: What the least minute that fires is, in a stretch of minutes.

## Theorems

* `candidate_spec`: Where a jump goes, and that it passes over no match.
* `search_spec`: What a search with enough turns left finds.
* `next_exact`: The next time of a schedule is the least, or there is none.
-/

namespace CopilotFleet

namespace Heartbeat

open Utf16 Split Refusal

/-! ### A fixed offset from UTC -/

/-- `new Date(at)` in a place `offset` minutes ahead of UTC, by the minute it stands in there. -/
def localDate (minute : Int) : LocalDate :=
  let date := Calendar.civil (minute / 1440)
  { year := date.1
    month := date.2.1
    day := date.2.2
    weekday := ((minute / 1440 + 4) % 7).toNat
    hour := (minute / 60 % 24).toNat
    minute := (minute % 60).toNat }

/-- The milliseconds before and after 1970 that are dates. -/
def dateRange : Int := 8640000000000000

def isDate (time : Rat) : Bool := -(dateRange : Rat) ≤ time ∧ time ≤ (dateRange : Rat)

/-- The time of a minute. -/
def atMinute (minute : Int) : Option Rat := some ((minute * 60000 : Int) : Rat)

/-- `new Date(year, …)` reads a year of two digits as one of the twentieth century. -/
def writtenYear (year : Int) : Int := if 0 ≤ year ∧ year ≤ 99 then 1900 + year else year

/-- Numbers, nothing standing for `NaN`, and local time `offset` minutes ahead of UTC. -/
def fixedOffset (offset : Int) : Clock (Option Rat) where
  isFinite := Option.isSome
  floorMinute := fun time => time.bind fun t => atMinute (t / 60000).floor
  plus := fun time n => time.map fun t => t + (n : Int)
  le := fun a b =>
    match a, b with
    | some a, some b => decide (a ≤ b)
    | _, _ => false
  lt := fun a b =>
    match a, b with
    | some a, some b => decide (a < b)
    | _, _ => false
  min := fun a b =>
    match a, b with
    | some a, some b => some (min a b)
    | _, _ => none
  apart := fun a b limit =>
    match a, b with
    | some a, some b => decide (((limit : Int) : Rat) < a - b)
    | _, _ => false
  date := fun time => time.bind fun t =>
    if isDate t then some (localDate ((t / 60000).floor + offset)) else none
  localTime := fun year month day hour =>
    (atMinute (Calendar.dayNumber (writtenYear year) month day * 1440 + hour * 60 - offset)).filter
      isDate

/-- The last minute that is a date; the first is as long before 1970. -/
def lastMinute : Int := 144000000000

theorem isDate_minute (minute : Int) :
    isDate ((minute * 60000 : Int) : Rat) ↔ -lastMinute ≤ minute ∧ minute ≤ lastMinute := by
  unfold isDate dateRange lastMinute
  rw [decide_eq_true_eq, ← Rat.intCast_neg, Rat.intCast_le_intCast, Rat.intCast_le_intCast]
  omega

theorem floor_minute (minute : Int) : (((minute * 60000 : Int) : Rat) / 60000).floor = minute := by
  have hquotient : ((minute * 60000 : Int) : Rat) / 60000 = (minute : Rat) := by
    push_cast
    field_simp
  rw [hquotient, Rat.floor_intCast]

section

variable {offset : Int}

theorem date_atMinute {minute : Int} (hlow : -lastMinute ≤ minute) (hhigh : minute ≤ lastMinute) :
    (fixedOffset offset).date (atMinute minute) = some (localDate (minute + offset)) := by
  simp only [fixedOffset, atMinute, Option.bind_some, floor_minute]
  rw [if_pos ((isDate_minute minute).mpr ⟨hlow, hhigh⟩)]

theorem date_beyond {minute : Int} (h : lastMinute < minute) :
    (fixedOffset offset).date (atMinute minute) = none := by
  simp only [fixedOffset, atMinute, Option.bind_some]
  rw [if_neg]
  rw [isDate_minute]
  omega

theorem plus_atMinute (minute : Int) (n : Nat) :
    (fixedOffset offset).plus (atMinute minute) (n * minuteMs) = atMinute (minute + n) := by
  simp only [fixedOffset, atMinute, Option.map_some, minuteMs, Option.some.injEq]
  push_cast
  ring

theorem lt_atMinute (a b : Int) :
    (fixedOffset offset).lt (atMinute a) (atMinute b) = decide (a < b) := by
  simp only [fixedOffset, atMinute, decide_eq_decide, Rat.intCast_lt_intCast]
  omega

theorem lt_none (a : Option Rat) : (fixedOffset offset).lt a none = false := by
  cases a <;> rfl

/-- The last minute of a limit. -/
theorem le_limit (minute : Int) (limit : Rat) :
    (fixedOffset offset).le (atMinute minute) (some limit) =
      decide (minute ≤ (limit / 60000).floor) := by
  simp only [fixedOffset, atMinute, decide_eq_decide]
  rw [Rat.le_floor_iff, le_div_iff₀ (by norm_num)]
  push_cast
  exact Iff.rfl

end

/-! ### Jumps -/

/-- Every field of an expression matches a date. -/
def fieldsMatch (expression : Expression) (date : LocalDate) : Bool :=
  expression.months.getD (date.month + 1) false && dayMatches expression date &&
    expression.hours.getD date.hour false && expression.minutes.getD date.minute false

/-- Every field matches a minute of local time. -/
def matchesAt (expression : Expression) (minute : Int) : Bool :=
  fieldsMatch expression (localDate minute)

theorem localDate_day {a b : Int} (h : a / 1440 = b / 1440) :
    (localDate a).year = (localDate b).year ∧ (localDate a).month = (localDate b).month ∧
      (localDate a).day = (localDate b).day ∧ (localDate a).weekday = (localDate b).weekday := by
  unfold localDate
  simp only [h, and_self]

theorem dayMatches_day (expression : Expression) {a b : Int} (h : a / 1440 = b / 1440) :
    dayMatches expression (localDate a) = dayMatches expression (localDate b) := by
  rcases localDate_day h with ⟨-, -, hday, hweekday⟩
  unfold dayMatches
  rw [hday, hweekday]

theorem localDate_hour {a b : Int} (h : a / 60 = b / 60) :
    a / 1440 = b / 1440 ∧ (localDate a).hour = (localDate b).hour := by
  have hday : a / 1440 = b / 1440 := by omega
  refine ⟨hday, ?_⟩
  unfold localDate
  simp only [h]

/-- The month of a minute, and the first of the next one. -/
theorem localDate_month (minute : Int) :
    (localDate minute).month < 12 ∧
      Calendar.dayNumber (localDate minute).year (localDate minute).month 1 ≤ minute / 1440 ∧
      minute / 1440 < Calendar.dayNumber (localDate minute).year ((localDate minute).month + 1) 1 ∧
      Calendar.dayNumber (localDate minute).year (localDate minute).month
        ((localDate minute).day + 1) = minute / 1440 + 1 := by
  rcases Calendar.civil_spec (minute / 1440) with ⟨hmonth, -, hnumber, -⟩
  rcases (Calendar.civil_eq_iff (minute / 1440) _ hmonth).mp ⟨rfl, rfl⟩ with ⟨hlow, hhigh⟩
  refine ⟨hmonth, hlow, hhigh, ?_⟩
  rw [Calendar.dayNumber_add]
  change Calendar.dayNumber _ _ (Calendar.civil (minute / 1440)).2.2 + 1 = _
  rw [show Calendar.dayNumber (localDate minute).year (localDate minute).month
    (Calendar.civil (minute / 1440)).2.2 = minute / 1440 from hnumber]

/-- No jump to the next month passes over another month. -/
theorem month_stays {minute later : Int} (hle : minute ≤ later)
    (hlt : later < Calendar.dayNumber (localDate minute).year
      ((localDate minute).month + 1) 1 * 1440) :
    (localDate later).month = (localDate minute).month := by
  rcases localDate_month minute with ⟨hmonth, hlow, -, -⟩
  exact ((Calendar.civil_eq_iff (later / 1440) (localDate minute).year hmonth).mpr
    ⟨by omega, by omega⟩).2

theorem indexOfTrue_some {allowed : List Bool} {start index : Nat}
    (h : indexOfTrue allowed start = some index) :
    start ≤ index ∧ allowed.getD index false = true ∧
      ∀ j, start ≤ j → j < index → allowed.getD j false = false := by
  unfold indexOfTrue at h
  rw [Option.map_eq_some_iff] at h
  rcases h with ⟨i, hfind, rfl⟩
  rw [List.findIdx?_eq_some_iff_getElem] at hfind
  rcases hfind with ⟨hi, hset, hnone⟩
  refine ⟨Nat.le_add_right _ _, ?_, ?_⟩
  · rw [List.getElem_drop] at hset
    rw [List.getD_eq_getElem?_getD, List.getElem?_eq_getElem (by simp at hi; omega)]
    simpa using hset
  · intro j hlow hhigh
    have hunset := hnone (j - start) (by omega)
    rw [List.getElem_drop] at hunset
    rw [List.getD_eq_getElem?_getD, List.getElem?_eq_getElem (by simp at hi; omega)]
    simpa [Nat.add_sub_cancel' hlow] using hunset

theorem indexOfTrue_none {allowed : List Bool} {start : Nat}
    (h : indexOfTrue allowed start = none) {j : Nat} (hj : start ≤ j) :
    allowed.getD j false = false := by
  unfold indexOfTrue at h
  rw [Option.map_eq_none_iff, List.findIdx?_eq_none_iff] at h
  by_cases hlength : j < allowed.length
  · rw [List.getD_eq_getElem?_getD, List.getElem?_eq_getElem hlength, Option.getD_some]
    have hmem : allowed[j] ∈ allowed.drop start := by
      rw [List.mem_drop_iff_getElem]
      exact ⟨j - start, by omega, by simp [Nat.add_sub_cancel' hj]⟩
    simpa using h _ hmem
  · rw [List.getD_eq_getElem?_getD, List.getElem?_eq_none (Nat.not_lt.mp hlength), Option.getD_none]

/-- Where a jump from a minute of local time goes. -/
structure Jump (expression : Expression) (minute target : Int) : Prop where
  later : minute < target
  /-- No month is longer. -/
  near : target ≤ minute + 44640
  passes : ∀ m, minute ≤ m → m < target → matchesAt expression m = false

/-- A date is written back as a time where its year is not one of the first hundred. -/
theorem localTime_eq (offset : Int) {year : Int} (hyear : ¬(0 ≤ year ∧ year ≤ 99))
    (month day hour : Nat) :
    (fixedOffset offset).localTime year month day hour =
      (atMinute (Calendar.dayNumber year month day * 1440 + hour * 60 - offset)).filter isDate := by
  simp only [fixedOffset, writtenYear, if_neg hyear]

/-- What the search does at a minute: it stops at a match, and jumps otherwise, into a
    later hour or to a match. -/
theorem candidate_spec (offset : Int) {expression : Expression}
    (hminutes : expression.minutes.length ≤ 60) (minute : Int)
    (hyear : ¬(0 ≤ (localDate (minute + offset)).year ∧ (localDate (minute + offset)).year ≤ 99)) :
    (candidate (fixedOffset offset) expression (atMinute minute)
        (localDate (minute + offset)) = none ∧ matchesAt expression (minute + offset) = true) ∨
      ∃ target, Jump expression (minute + offset) target ∧
        ((candidate (fixedOffset offset) expression (atMinute minute)
              (localDate (minute + offset)) = some ((atMinute (target - offset)).filter isDate) ∧
            (minute + offset) / 60 < target / 60) ∨
          (candidate (fixedOffset offset) expression (atMinute minute)
              (localDate (minute + offset)) = some (atMinute (target - offset)) ∧
            matchesAt expression target = true)) := by
  generalize hlocal : minute + offset = here at hyear ⊢
  rcases localDate_month here with ⟨hmonth, hbegun, hnext, htomorrow⟩
  have hhour : ((localDate here).hour : Int) = here / 60 % 24 :=
    Int.toNat_of_nonneg (Int.emod_nonneg _ (by decide))
  have hminute : ((localDate here).minute : Int) = here % 60 :=
    Int.toNat_of_nonneg (Int.emod_nonneg _ (by decide))
  unfold candidate
  by_cases hmonths : expression.months.getD ((localDate here).month + 1) false = true
  · rw [hmonths, Bool.not_true, if_neg Bool.false_ne_true]
    by_cases hdays : dayMatches expression (localDate here) = true
    · rw [hdays, Bool.not_true, if_neg Bool.false_ne_true]
      have hsameDay : ∀ m, m / 1440 = here / 1440 →
          dayMatches expression (localDate m) = true ∧
            expression.months.getD ((localDate m).month + 1) false = true := by
        intro m hm
        rw [dayMatches_day expression hm, (localDate_day hm).2.1]
        exact ⟨hdays, hmonths⟩
      -- The next hour of this day, or the first of the next.
      have hlater : Calendar.dayNumber (localDate here).year (localDate here).month
          (localDate here).day = here / 1440 := by
        rw [Calendar.dayNumber_add] at htomorrow
        omega
      have hjump : Calendar.dayNumber (localDate here).year (localDate here).month
          (localDate here).day * 1440 + ((localDate here).hour + 1 : Nat) * 60 - offset =
            (here / 60 + 1) * 60 - offset := by
        rw [hlater]
        push_cast
        omega
      have hnextHour : (∀ m, here ≤ m → m < (here / 60 + 1) * 60 →
          matchesAt expression m = false) →
            Jump expression here ((here / 60 + 1) * 60) ∧
              here / 60 < (here / 60 + 1) * 60 / 60 :=
        fun h => ⟨⟨by omega, by omega, h⟩, by omega⟩
      by_cases hhours : expression.hours.getD (localDate here).hour false = true
      · rw [hhours, Bool.not_true, if_neg Bool.false_ne_true]
        by_cases hset : expression.minutes.getD (localDate here).minute false = true
        · rw [hset, Bool.not_true, if_neg Bool.false_ne_true]
          refine Or.inl ⟨rfl, ?_⟩
          simp only [matchesAt, fieldsMatch, hmonths, hdays, hhours, hset, Bool.and_self]
        · have hunset : expression.minutes.getD (localDate here).minute false = false :=
            Bool.eq_false_iff.mpr hset
          rw [hunset, Bool.not_false, if_pos rfl]
          right
          cases hindex : indexOfTrue expression.minutes ((localDate here).minute + 1) with
          | none =>
              have hpasses : ∀ m, here ≤ m → m < (here / 60 + 1) * 60 →
                  matchesAt expression m = false := by
                intro m hlow hhigh
                have hof : ((localDate m).minute : Int) = m % 60 :=
                  Int.toNat_of_nonneg (Int.emod_nonneg _ (by decide))
                have hnone : expression.minutes.getD (localDate m).minute false = false := by
                  by_cases hsame : (localDate m).minute = (localDate here).minute
                  · rw [hsame]
                    exact hunset
                  · exact indexOfTrue_none hindex (by omega)
                unfold matchesAt fieldsMatch
                rw [hnone, Bool.and_false]
              rcases hnextHour hpasses with ⟨hgo, hto⟩
              refine ⟨_, hgo, Or.inl ⟨?_, hto⟩⟩
              simp only [localTime_eq offset hyear, hjump]
          | some index =>
              rcases indexOfTrue_some hindex with ⟨hstart, hallowed, hbetween⟩
              have hbound : index < 60 := by
                by_contra hbeyond
                rw [List.getD_eq_getElem?_getD, List.getElem?_eq_none (by omega),
                  Option.getD_none] at hallowed
                cases hallowed
              refine ⟨here - here % 60 + index, ⟨by omega, by omega, ?_⟩, Or.inr ⟨?_, ?_⟩⟩
              · intro m hlow hhigh
                have hof : ((localDate m).minute : Int) = m % 60 :=
                  Int.toNat_of_nonneg (Int.emod_nonneg _ (by decide))
                have hnone : expression.minutes.getD (localDate m).minute false = false := by
                  by_cases hsame : (localDate m).minute = (localDate here).minute
                  · rw [hsame]
                    exact hunset
                  · exact hbetween _ (by omega) (by omega)
                unfold matchesAt fieldsMatch
                rw [hnone, Bool.and_false]
              · simp only [plus_atMinute]
                rw [show minute + ((index - (localDate here).minute : Nat) : Int) =
                  here - here % 60 + index - offset by omega]
              · have hsame : (here - here % 60 + index) / 60 = here / 60 := by omega
                rcases localDate_hour hsame with ⟨hday, hsameHour⟩
                have hof : (localDate (here - here % 60 + index)).minute = index := by
                  change ((here - here % 60 + (index : Int)) % 60).toNat = index
                  omega
                unfold matchesAt fieldsMatch
                rw [(hsameDay _ hday).1, (hsameDay _ hday).2, hsameHour, hhours, hof, hallowed]
                rfl
      · have hunset : expression.hours.getD (localDate here).hour false = false :=
          Bool.eq_false_iff.mpr hhours
        rw [hunset, Bool.not_false, if_pos rfl]
        have hpasses : ∀ m, here ≤ m → m < (here / 60 + 1) * 60 →
            matchesAt expression m = false := by
          intro m hlow hhigh
          have hsame := (localDate_hour (show m / 60 = here / 60 by omega)).2
          unfold matchesAt fieldsMatch
          rw [hsame, hunset, Bool.and_false, Bool.false_and]
        rcases hnextHour hpasses with ⟨hgo, hto⟩
        refine Or.inr ⟨_, hgo, Or.inl ⟨?_, hto⟩⟩
        rw [localTime_eq offset hyear, hjump]
    · have hunset : dayMatches expression (localDate here) = false := Bool.eq_false_iff.mpr hdays
      rw [hunset, Bool.not_false, if_pos rfl]
      refine Or.inr ⟨(here / 1440 + 1) * 1440, ⟨by omega, by omega, ?_⟩, Or.inl ⟨?_, by omega⟩⟩
      · intro m hlow hhigh
        unfold matchesAt fieldsMatch
        rw [dayMatches_day expression (show m / 1440 = here / 1440 by omega), hunset,
          Bool.and_false, Bool.false_and, Bool.false_and]
      · rw [localTime_eq offset hyear, htomorrow, Int.natCast_zero, Int.zero_mul, Int.add_zero]
  · have hunset : expression.months.getD ((localDate here).month + 1) false = false :=
      Bool.eq_false_iff.mpr hmonths
    rw [hunset, Bool.not_false, if_pos rfl]
    have hlength := Calendar.dayNumber_succ (localDate here).year hmonth
    have hlong : Calendar.daysInMonth (localDate here).year (localDate here).month ≤ 31 :=
      Calendar.daysInMonth_le _ _
    refine Or.inr ⟨Calendar.dayNumber (localDate here).year ((localDate here).month + 1) 1 * 1440,
      ⟨by omega, by omega, ?_⟩, Or.inl ⟨?_, by omega⟩⟩
    · intro m hlow hhigh
      unfold matchesAt fieldsMatch
      rw [month_stays hlow hhigh, hunset, Bool.false_and, Bool.false_and, Bool.false_and]
    · rw [localTime_eq offset hyear, Int.natCast_zero, Int.zero_mul, Int.add_zero]

/-! ### Searches -/

/-- The guard of the loop is what ends a search: the limit is not passed and nothing is found. -/
def runsOut {ν : Type} (clock : Clock ν) (expression : Expression) (limit : ν) : Nat → ν → Bool
  | 0, now => clock.le now limit
  | guard + 1, now =>
      if clock.le now limit then
        match clock.date now with
        | none => runsOut clock expression limit guard (clock.plus now minuteMs)
        | some date =>
            match candidate clock expression now date with
            | none => false
            | some later =>
                runsOut clock expression limit guard
                  (if clock.lt now later then later else clock.plus now minuteMs)
      else false

section

variable {offset : Int} {expression : Expression} {limit : Rat}

/-- Beyond the limit a search is over. -/
theorem search_beyond {minute : Int} (h : (limit / 60000).floor < minute) (guard : Nat) :
    search (fixedOffset offset) expression (some limit) guard (atMinute minute) = none ∧
      runsOut (fixedOffset offset) expression (some limit) guard (atMinute minute) = false := by
  have hle : (fixedOffset offset).le (atMinute minute) (some limit) = false := by
    rw [le_limit, decide_eq_false_iff_not]
    omega
  cases guard with
  | zero => exact ⟨rfl, hle⟩
  | succ guard =>
      unfold search runsOut
      rw [hle]
      exact ⟨rfl, rfl⟩

/-- Beyond the range of dates a search finds nothing. -/
theorem search_undated (guard : Nat) {minute : Int} (h : lastMinute < minute) :
    search (fixedOffset offset) expression (some limit) guard (atMinute minute) = none := by
  induction guard generalizing minute with
  | zero => rfl
  | succ guard ih =>
      unfold search
      by_cases hle : (fixedOffset offset).le (atMinute minute) (some limit) = true
      · rw [if_pos hle, date_beyond h]
        have hplus := @plus_atMinute offset minute 1
        rw [Nat.one_mul] at hplus
        simp only [hplus]
        exact ih (by omega)
      · rw [if_neg hle]

/-- Where the least minute of a stretch that has a property is found. -/
def Next (fires : Int → Prop) (first last : Int) : Option (Option Rat) → Prop
  | none => ∀ m, first ≤ m → m ≤ last → ¬fires m
  | some found => ∃ minute, found = atMinute minute ∧ first ≤ minute ∧ minute ≤ last ∧
      fires minute ∧ ∀ m, first ≤ m → fires m → minute ≤ m

/-- A minute is a date, and the expression matches it. -/
def FiresAt (offset : Int) (expression : Expression) (minute : Int) : Prop :=
  -lastMinute ≤ minute ∧ minute ≤ lastMinute ∧ matchesAt expression (minute + offset) = true

/-- A later start finds the same where nothing before it has the property. -/
theorem Next.earlier {fires : Int → Prop} {first later last : Int} {found : Option (Option Rat)}
    (h : Next fires later last found) (hle : first ≤ later)
    (hnone : ∀ m, first ≤ m → m < later → ¬fires m) : Next fires first last found := by
  cases found with
  | none =>
      intro m hlow hhigh
      by_cases hm : m < later
      · exact hnone m hlow hm
      · exact h m (by omega) hhigh
  | some found =>
      rcases h with ⟨minute, hfound, hlow, hhigh, hfires, hleast⟩
      refine ⟨minute, hfound, by omega, hhigh, hfires, fun m hm hfire => ?_⟩
      by_cases hlt : m < later
      · exact absurd hfire (hnone m hm hlt)
      · exact hleast m (by omega) hfire

/-- The turns a search still needs: one for an hour and what the last month may cost, or
    one for a minute. -/
def Enough (offset last : Int) (guard : Nat) (minute : Int) : Prop :=
  (last + offset) / 60 - (minute + offset) / 60 + 44643 ≤ guard ∨ last - minute + 2 ≤ guard

/-- A search that starts at a match stops there. -/
theorem search_here (hminutes : expression.minutes.length ≤ 60) {minute : Int} (guard : Nat)
    (hlow : -lastMinute ≤ minute) (hdate : minute ≤ lastMinute)
    (hlimit : minute ≤ (limit / 60000).floor)
    (hyear : ¬(0 ≤ (localDate (minute + offset)).year ∧ (localDate (minute + offset)).year ≤ 99))
    (hmatch : matchesAt expression (minute + offset) = true) :
    search (fixedOffset offset) expression (some limit) (guard + 1) (atMinute minute) =
        some (atMinute minute) ∧
      runsOut (fixedOffset offset) expression (some limit) (guard + 1) (atMinute minute) = false := by
  have hle : (fixedOffset offset).le (atMinute minute) (some limit) = true := by
    rw [le_limit, decide_eq_true_eq]
    exact hlimit
  have hstop : candidate (fixedOffset offset) expression (atMinute minute)
      (localDate (minute + offset)) = none := by
    rcases candidate_spec offset hminutes minute hyear with ⟨hnone, -⟩ | ⟨target, hjump, -⟩
    · exact hnone
    · have hpassed := hjump.passes (minute + offset) (le_refl _) hjump.later
      rw [hmatch] at hpassed
      cases hpassed
  unfold search runsOut
  rw [if_pos hle, if_pos hle, date_atMinute hlow hdate]
  simp only [hstop, and_self]

/-- What a search from a minute on has to find, and that its guard does not end it where
    every minute up to the limit is a date. -/
def Exact (offset : Int) (expression : Expression) (limit : Rat) (guard : Nat) (minute : Int)
    (now : Option Rat) : Prop :=
  Next (FiresAt offset expression) minute (limit / 60000).floor
      (search (fixedOffset offset) expression (some limit) guard now) ∧
    ((limit / 60000).floor ≤ lastMinute →
      runsOut (fixedOffset offset) expression (some limit) guard now = false)

/-- Past the limit, or past the dates, there is nothing to find. -/
theorem exact_past {minute : Int} (h : min lastMinute (limit / 60000).floor < minute)
    (guard : Nat) : Exact offset expression limit guard minute (atMinute minute) := by
  by_cases hlimit : (limit / 60000).floor < minute
  · rcases @search_beyond offset expression limit minute hlimit guard with ⟨hsearch, hruns⟩
    refine ⟨?_, fun _ => hruns⟩
    rw [hsearch]
    intro m hlow hhigh
    omega
  · refine ⟨?_, fun hdates => by omega⟩
    rw [search_undated guard (by omega)]
    rintro m hlow - ⟨-, hdate, -⟩
    omega

/-- What was exact from where a turn goes on is exact from where it began. -/
theorem Exact.turn {minute later : Int} {guard : Nat} {now : Option Rat}
    (h : Exact offset expression limit guard later now) (hle : minute ≤ later)
    (hpasses : ∀ m, minute ≤ m → m < later → matchesAt expression (m + offset) = false)
    (hsearch : search (fixedOffset offset) expression (some limit) (guard + 1) (atMinute minute) =
      search (fixedOffset offset) expression (some limit) guard now)
    (hruns : runsOut (fixedOffset offset) expression (some limit) (guard + 1) (atMinute minute) =
      runsOut (fixedOffset offset) expression (some limit) guard now) :
    Exact offset expression limit (guard + 1) minute (atMinute minute) := by
  unfold Exact
  rw [hsearch, hruns]
  refine ⟨h.1.earlier hle fun m hlow hhigh hfires => ?_, h.2⟩
  have hmatch := hfires.2.2
  rw [hpasses m hlow hhigh] at hmatch
  cases hmatch

theorem search_spec (hminutes : expression.minutes.length ≤ 60) (guard : Nat) {minute : Int}
    (hlow : -lastMinute ≤ minute)
    (hyears : ∀ m, minute ≤ m → m ≤ min lastMinute (limit / 60000).floor →
      ¬(0 ≤ (localDate (m + offset)).year ∧ (localDate (m + offset)).year ≤ 99))
    (henough : Enough offset (min lastMinute (limit / 60000).floor) guard minute) :
    Exact offset expression limit guard minute (atMinute minute) := by
  induction guard generalizing minute with
  | zero =>
      refine exact_past ?_ 0
      rcases henough with h | h <;> omega
  | succ guard ih =>
      by_cases hpast : min lastMinute (limit / 60000).floor < minute
      · exact exact_past hpast _
      have hdate : minute ≤ lastMinute := by omega
      have hle : (fixedOffset offset).le (atMinute minute) (some limit) = true := by
        rw [le_limit, decide_eq_true_eq]
        omega
      -- One turn of the loop, by what the search does at this minute.
      have hturn : ∀ next, candidate (fixedOffset offset) expression (atMinute minute)
          (localDate (minute + offset)) = some next →
          search (fixedOffset offset) expression (some limit) (guard + 1) (atMinute minute) =
              search (fixedOffset offset) expression (some limit) guard
                (if (fixedOffset offset).lt (atMinute minute) next then next
                  else atMinute (minute + 1)) ∧
            runsOut (fixedOffset offset) expression (some limit) (guard + 1) (atMinute minute) =
              runsOut (fixedOffset offset) expression (some limit) guard
                (if (fixedOffset offset).lt (atMinute minute) next then next
                  else atMinute (minute + 1)) := by
        intro next hnext
        have hplus := @plus_atMinute offset minute 1
        rw [Nat.one_mul] at hplus
        rw [search, runsOut, if_pos hle, if_pos hle, date_atMinute hlow hdate]
        simp only [hnext, hplus]
        exact ⟨rfl, rfl⟩
      have hyear := hyears minute (le_refl _) (by omega)
      rcases candidate_spec offset hminutes minute hyear with
        ⟨hnone, hmatch⟩ | ⟨target, hjump, ⟨hnext, hhour⟩ | ⟨hnext, hmatch⟩⟩
      · have hlimit : minute ≤ (limit / 60000).floor := by omega
        rcases search_here hminutes guard hlow hdate hlimit hyear hmatch with ⟨hsearch, hruns⟩
        refine ⟨?_, fun _ => hruns⟩
        rw [hsearch]
        exact ⟨minute, rfl, le_refl _, by omega, ⟨hlow, hdate, hmatch⟩, fun m hm _ => hm⟩
      · have hlater := hjump.later
        have hnear := hjump.near
        by_cases hvalid : target - offset ≤ lastMinute
        · -- The next hour that may match is a date, and an hour less is left.
          have hsome : (atMinute (target - offset)).filter isDate = atMinute (target - offset) := by
            rw [atMinute, Option.filter_some, if_pos]
            exact (isDate_minute _).mpr ⟨by omega, hvalid⟩
          rw [hsome] at hnext
          rcases hturn _ hnext with ⟨hsearch, hruns⟩
          rw [lt_atMinute, if_pos (by rw [decide_eq_true_eq]; omega)] at hsearch hruns
          refine (ih (by omega) (fun m hm => hyears m (by omega)) ?_).turn (by omega)
            (fun m hm hm' => hjump.passes _ (by omega) (by omega)) hsearch hruns
          rcases henough with h | h
          · left
            rw [Int.sub_add_cancel]
            omega
          · right
            omega
        · -- No date is left before the next one that may match; the search creeps.
          have hnan : (atMinute (target - offset)).filter isDate = none := by
            rw [atMinute, Option.filter_some, if_neg]
            rw [isDate_minute]
            omega
          rw [hnan] at hnext
          rcases hturn _ hnext with ⟨hsearch, hruns⟩
          rw [lt_none, if_neg Bool.false_ne_true] at hsearch hruns
          refine (ih (by omega) (fun m hm => hyears m (by omega)) ?_).turn (by omega)
            (fun m hm hm' => hjump.passes _ (by omega) (by omega)) hsearch hruns
          right
          rcases henough with h | h <;> omega
      · -- A later minute of this hour matches, and the next turn stops there.
        have hlater := hjump.later
        rcases hturn _ hnext with ⟨hsearch, hruns⟩
        rw [lt_atMinute, if_pos (by rw [decide_eq_true_eq]; omega)] at hsearch hruns
        have hthere : Exact offset expression limit guard (target - offset)
            (atMinute (target - offset)) := by
          by_cases hpast' : min lastMinute (limit / 60000).floor < target - offset
          · exact exact_past hpast' guard
          · obtain ⟨rest, rfl⟩ : ∃ rest, guard = rest + 1 := by
              refine ⟨guard - 1, ?_⟩
              rcases henough with h | h <;> omega
            rw [← Int.sub_add_cancel target offset] at hmatch
            have hlimit : target - offset ≤ (limit / 60000).floor := by omega
            rcases search_here hminutes rest (by omega) (by omega) hlimit
              (hyears _ (by omega) (by omega)) hmatch with ⟨hfound, hnever⟩
            refine ⟨?_, fun _ => hnever⟩
            rw [hfound]
            exact ⟨_, rfl, le_refl _, by omega, ⟨by omega, by omega, hmatch⟩, fun m hm _ => hm⟩
        exact hthere.turn (by omega) (fun m hm hm' => hjump.passes _ (by omega) (by omega))
          hsearch hruns

end

/-! ### Expressions that were read -/

theorem parseField_length {text : Text} {spec : FieldSpec} {allowed : List Bool}
    (h : parseField text spec = .ok allowed) : allowed.length = spec.max + 1 := by
  have hentries : ∀ (parts : List Text) (before after : List Bool),
      parts.foldlM (parseEntry spec) before = .ok after → after.length = before.length := by
    intro parts
    induction parts with
    | nil =>
        intro before after h
        cases h
        rfl
    | cons part rest ih =>
        intro before after h
        rw [List.foldlM_cons] at h
        rcases bind_ok h with ⟨next, hnext, h⟩
        rw [ih next after h]
        unfold parseEntry at hnext
        split at hnext
        · cases hnext
        · simp only at hnext
          split at hnext
          · cases hnext
          · rcases bind_ok hnext with ⟨⟨low, high⟩, -, hnext⟩
            simp only at hnext
            split at hnext
            · cases hnext
            · cases hnext
              simp [allow]
  simpa using hentries _ _ _ h

theorem parseExpression_minutes {text : Text} {expression : Expression}
    (h : parseExpression text = .ok expression) : expression.minutes.length = 60 := by
  unfold parseExpression at h
  rcases bind_ok h with ⟨source, -, h⟩
  split at h
  · rcases bind_ok h with ⟨minutes, hminutes, h⟩
    rcases bind_ok h with ⟨hours, -, h⟩
    rcases bind_ok h with ⟨days, -, h⟩
    rcases bind_ok h with ⟨months, -, h⟩
    rcases bind_ok h with ⟨weekdays, -, h⟩
    cases h
    exact parseField_length hminutes
  · cases h

theorem parse_minutes {text : Text} {schedule : HeartbeatSchedule}
    (h : parseHeartbeatSchedule text = .ok schedule) :
    ∀ expression ∈ schedule.expressions, expression.minutes.length ≤ 60 := by
  have hread : ∀ (sources : List Text) (expressions : List Expression),
      sources.mapM parseExpression = .ok expressions →
        ∀ expression ∈ expressions, expression.minutes.length ≤ 60 := by
    intro sources
    induction sources with
    | nil =>
        intro expressions h expression hmem
        cases h
        cases hmem
    | cons source rest ih =>
        intro expressions h expression hmem
        rw [List.mapM_cons] at h
        rcases bind_ok h with ⟨first, hfirst, h⟩
        rcases bind_ok h with ⟨others, hothers, h⟩
        cases h
        rcases List.mem_cons.mp hmem with rfl | hmem
        · exact le_of_eq (parseExpression_minutes hfirst)
        · exact ih others hothers expression hmem
  unfold parseHeartbeatSchedule at h
  split at h
  · cases h
  · split at h
    · cases h
    · split at h
      · cases h
      · rcases bind_ok h with ⟨expressions, hexpressions, h⟩
        cases h
        exact hread _ _ hexpressions

/-! ### The least of several searches -/

/-- The minutes from the first after a time to the last of its horizon. -/
structure Stretch (offset : Int) (after : Rat) (first last : Int) : Prop where
  begins : first = (after / 60000).floor + 1
  ends : last = ((after + (searchHorizonMs : Int)) / 60000).floor
  dates : -lastMinute ≤ first
  years : ∀ m, first ≤ m → m ≤ min lastMinute last →
    ¬(0 ≤ (localDate (m + offset)).year ∧ (localDate (m + offset)).year ≤ 99)

variable {offset : Int} {after : Rat} {first last : Int} {expression : Expression}

theorem Stretch.length (h : Stretch offset after first last) : last = first + 2635199 := by
  have hsum : (after + ((searchHorizonMs : Int) : Rat)) / 60000 =
      after / 60000 + ((2635200 : Int) : Rat) := by
    rw [show ((searchHorizonMs : Nat) : Int) = 158112000000 by decide]
    push_cast
    ring
  rw [h.ends, h.begins, hsum, Rat.floor_add_intCast]
  omega

/-- One search of the stretch, up to a limit within it. -/
theorem Stretch.finds (h : Stretch offset after first last)
    (hminutes : expression.minutes.length ≤ 60) {limit : Rat}
    (hlimit : (limit / 60000).floor ≤ last) :
    Exact offset expression limit 1000000 first
      ((fixedOffset offset).plus ((fixedOffset offset).floorMinute (some after)) minuteMs) := by
  have hstart : (fixedOffset offset).plus ((fixedOffset offset).floorMinute (some after)) minuteMs =
      atMinute first := by
    have hplus := @plus_atMinute offset (after / 60000).floor 1
    rw [Nat.one_mul] at hplus
    rw [h.begins]
    exact hplus
  have hlength := h.length
  rw [hstart]
  refine search_spec hminutes 1000000 h.dates (fun m hlow hhigh => h.years m hlow (by omega)) ?_
  left
  omega

theorem floor_min (minute : Int) {time : Rat} (h : minute ≤ (time / 60000).floor) :
    ((min ((minute * 60000 : Int) : Rat) time) / 60000).floor = minute := by
  rw [Rat.le_floor_iff, le_div_iff₀ (by norm_num)] at h
  rw [min_eq_left (by push_cast; exact h), floor_minute]

/-- One more expression: the least of what was found and what it finds first. -/
theorem Stretch.earlier (h : Stretch offset after first last)
    (hminutes : expression.minutes.length ≤ 60) {fires : Int → Prop}
    {earliest : Option (Option Rat)} (hearliest : Next fires first last earliest) :
    Next (fun m => fires m ∨ FiresAt offset expression m) first last
      (earlier (fixedOffset offset) (some after) earliest expression) := by
  have hhorizon : (fixedOffset offset).plus (some after) searchHorizonMs =
      some (after + (searchHorizonMs : Int)) := rfl
  cases earliest with
  | none =>
      have hsearch := (h.finds hminutes (le_of_eq h.ends.symm)).1
      rw [← h.ends] at hsearch
      simp only [Heartbeat.earlier, nextMatch, hhorizon, Option.map_none, Option.getD_none]
      generalize search (fixedOffset offset) expression _ 1000000 _ = found at hsearch ⊢
      cases found with
      | none =>
          rintro m hlow hhigh (hfires | hfires)
          · exact hearliest m hlow hhigh hfires
          · exact hsearch m hlow hhigh hfires
      | some time =>
          rcases hsearch with ⟨minute, rfl, hlow, hhigh, hfires, hleast⟩
          refine ⟨minute, rfl, hlow, hhigh, Or.inr hfires, ?_⟩
          rintro m hm (hfire | hfire)
          · by_contra hlt
            exact hearliest m hm (by omega) hfire
          · exact hleast m hm hfire
  | some time =>
      rcases hearliest with ⟨known, rfl, hlow, hhigh, hfires, hleast⟩
      -- What was found already is the limit of this search.
      have hlimit : (fixedOffset offset).min (atMinute known) (some (after + (searchHorizonMs : Int))) =
          some (min ((known * 60000 : Int) : Rat) (after + (searchHorizonMs : Int))) := rfl
      have hfloor := floor_min known (by rw [← h.ends]; exact hhigh)
      have hsearch := (h.finds hminutes (by rw [hfloor]; exact hhigh)).1
      rw [hfloor] at hsearch
      simp only [Heartbeat.earlier, nextMatch, hhorizon, hlimit, Option.map_some, Option.getD_some]
      generalize search (fixedOffset offset) expression _ 1000000 _ = found at hsearch ⊢
      cases found with
      | none =>
          refine ⟨known, rfl, hlow, hhigh, Or.inl hfires, ?_⟩
          rintro m hm (hfire | hfire)
          · exact hleast m hm hfire
          · by_contra hlt
            exact hsearch m hm (by omega) hfire
      | some time =>
          rcases hsearch with ⟨minute, rfl, hlow', hhigh', hfires', hleast'⟩
          simp only [lt_atMinute, decide_eq_true_eq]
          by_cases hlt : minute < known
          · rw [if_pos hlt]
            refine ⟨minute, rfl, hlow', by omega, Or.inr hfires', ?_⟩
            rintro m hm (hfire | hfire)
            · have := hleast m hm hfire
              omega
            · exact hleast' m hm hfire
          · rw [if_neg hlt]
            refine ⟨known, rfl, hlow, hhigh, Or.inl hfires, ?_⟩
            rintro m hm (hfire | hfire)
            · exact hleast m hm hfire
            · have := hleast' m hm hfire
              omega

/-- A minute is a date, and an expression of the schedule matches it. -/
def Fires (offset : Int) (expressions : List Expression) (minute : Int) : Prop :=
  ∃ expression ∈ expressions, FiresAt offset expression minute

theorem Stretch.least (h : Stretch offset after first last) (expressions : List Expression)
    (hminutes : ∀ expression ∈ expressions, expression.minutes.length ≤ 60) :
    Next (Fires offset expressions) first last
      (expressions.foldl (Heartbeat.earlier (fixedOffset offset) (some after)) none) := by
  have hloop : ∀ (rest : List Expression) (fires : Int → Prop) (earliest : Option (Option Rat)),
      (∀ expression ∈ rest, expression.minutes.length ≤ 60) → Next fires first last earliest →
        Next (fun m => fires m ∨ Fires offset rest m) first last
          (rest.foldl (Heartbeat.earlier (fixedOffset offset) (some after)) earliest) := by
    intro rest
    induction rest with
    | nil =>
        intro fires earliest _ hearliest
        simpa [Fires] using hearliest
    | cons expression rest ih =>
        intro fires earliest hrest hearliest
        have hnext := ih _ _ (fun other hother => hrest other (List.mem_cons_of_mem _ hother))
          (h.earlier (hrest expression List.mem_cons_self) hearliest)
        simpa only [Fires, List.exists_mem_cons_iff, or_assoc, List.foldl_cons] using hnext
  have hnone : Next (fun _ => False) first last none := fun _ _ _ hfalse => hfalse
  simpa only [false_or] using hloop expressions _ none hminutes hnone

theorem after_minute (after : Rat) (minute : Int) :
    after < ((minute * 60000 : Int) : Rat) ↔ (after / 60000).floor + 1 ≤ minute := by
  rw [Int.add_one_le_iff, Rat.floor_lt_iff, div_lt_iff₀ (by norm_num)]
  push_cast
  exact Iff.rfl

theorem minute_within (minute : Int) (time : Rat) :
    ((minute * 60000 : Int) : Rat) ≤ time ↔ minute ≤ (time / 60000).floor := by
  rw [Rat.le_floor_iff, le_div_iff₀ (by norm_num)]
  push_cast
  exact Iff.rfl

/-- Where local time is a fixed offset from UTC, the next time of an accepted schedule is the
    least minute after the given one, within the horizon, that is a date and that an
    expression matches, and there is no next time exactly where there is no such minute; and
    where the horizon ends within the range of dates, no search is ended by its guard. The
    time is not before the first date, and no minute of the horizon has a year that a date
    cannot be written with. -/
theorem next_exact (offset : Int) {text : Text} {schedule : HeartbeatSchedule}
    (hparse : parseHeartbeatSchedule text = .ok schedule) (after : Rat)
    (hdates : -(dateRange : Rat) ≤ after)
    (hyears : ∀ m : Int, after < ((m * 60000 : Int) : Rat) →
      ((m * 60000 : Int) : Rat) ≤ after + (searchHorizonMs : Int) →
        ¬(0 ≤ (localDate (m + offset)).year ∧ (localDate (m + offset)).year ≤ 99)) :
    (match schedule.next (fixedOffset offset) (some after) with
      | none => ∀ m : Int, after < ((m * 60000 : Int) : Rat) →
          ((m * 60000 : Int) : Rat) ≤ after + (searchHorizonMs : Int) →
            ¬Fires offset schedule.expressions m
      | some found => ∃ minute : Int, found = atMinute minute ∧
          after < ((minute * 60000 : Int) : Rat) ∧
            ((minute * 60000 : Int) : Rat) ≤ after + (searchHorizonMs : Int) ∧
              Fires offset schedule.expressions minute ∧
                ∀ m : Int, after < ((m * 60000 : Int) : Rat) →
                  Fires offset schedule.expressions m → minute ≤ m) ∧
    (after + (searchHorizonMs : Int) ≤ (dateRange : Rat) →
      ∀ expression ∈ schedule.expressions, ∀ limit ≤ after + (searchHorizonMs : Int),
        runsOut (fixedOffset offset) expression (some limit) 1000000
          ((fixedOffset offset).plus ((fixedOffset offset).floorMinute (some after)) minuteMs) =
            false) := by
  have hminutes := parse_minutes hparse
  -- The minutes searched are the first after `after` up to the horizon.
  have hstretch : Stretch offset after ((after / 60000).floor + 1)
      ((after + (searchHorizonMs : Int)) / 60000).floor := by
    refine ⟨rfl, rfl, ?_, ?_⟩
    · have hfirst : -lastMinute ≤ (after / 60000).floor := by
        rw [Rat.le_floor_iff, le_div_iff₀ (by norm_num)]
        refine le_trans (le_of_eq ?_) hdates
        unfold lastMinute dateRange
        norm_num
      omega
    · intro m hlow hhigh
      exact hyears m ((after_minute after m).mpr hlow)
        ((minute_within m _).mpr (le_trans hhigh (min_le_right _ _)))
  constructor
  · have hleast := hstretch.least schedule.expressions hminutes
    change match schedule.expressions.foldl
      (Heartbeat.earlier (fixedOffset offset) (some after)) none with
      | none => _
      | some found => _
    simp only [after_minute, minute_within]
    generalize schedule.expressions.foldl
      (Heartbeat.earlier (fixedOffset offset) (some after)) none = found at hleast ⊢
    cases found with
    | none => exact hleast
    | some time => exact hleast
  · -- The guard of a million steps is not reached inside the dates of the platform.
    intro hinside expression hexpression limit hlimit
    refine (hstretch.finds (hminutes expression hexpression) ?_).2 ?_
    · exact Rat.floor_monotone (div_le_div_of_nonneg_right hlimit (by norm_num))
    · have hle := Rat.floor_monotone
        (div_le_div_of_nonneg_right (le_trans hlimit hinside) (show (0 : Rat) ≤ 60000 by norm_num))
      refine le_trans hle (le_of_eq ?_)
      rw [show ((dateRange : Int) : Rat) / 60000 = ((lastMinute : Int) : Rat) by
        unfold dateRange lastMinute; norm_num, Rat.floor_intCast]

/-- Every night at one o'clock. -/
def nightly : Text := ofString "0 1 * * *"

/-- Five years from 1970 on, the next time of the nightly schedule is the least. -/
theorem next_exact_nightly :
    ∃ schedule, parseHeartbeatSchedule nightly = .ok schedule ∧
      (match schedule.next (fixedOffset 0) (some 0) with
        | none => ∀ m : Int, (0 : Rat) < ((m * 60000 : Int) : Rat) →
            ((m * 60000 : Int) : Rat) ≤ 0 + (searchHorizonMs : Int) →
              ¬Fires 0 schedule.expressions m
        | some found => ∃ minute : Int, found = atMinute minute ∧
            (0 : Rat) < ((minute * 60000 : Int) : Rat) ∧
              ((minute * 60000 : Int) : Rat) ≤ 0 + (searchHorizonMs : Int) ∧
                Fires 0 schedule.expressions minute ∧
                  ∀ m : Int, (0 : Rat) < ((m * 60000 : Int) : Rat) →
                    Fires 0 schedule.expressions m → minute ≤ m) := by
  have hok : (parseHeartbeatSchedule nightly).isOk = true := by decide +kernel
  cases hparse : parseHeartbeatSchedule nightly with
  | error reason =>
      rw [hparse] at hok
      cases hok
  | ok schedule =>
      refine ⟨schedule, rfl, (next_exact 0 hparse 0 (by decide +kernel) ?_).1⟩
      rintro m hlow - ⟨-, hyear⟩
      -- The year of a later minute is not before 1970.
      have hday := (Calendar.civil_year_lt ((m + 0) / 1440) 100).mp (Int.lt_of_le_of_lt hyear
        (by decide))
      have hbefore : Calendar.dayNumber 100 0 1 < 0 := by decide +kernel
      rw [after_minute] at hlow
      have hzero : ((0 : Rat) / 60000).floor = 0 := by decide +kernel
      omega

/-- The first minute of the year 50. -/
def yearFifty : Int := Calendar.dayNumber 50 0 1 * 1440

theorem year_fifty_missed :
    ((parseHeartbeatSchedule nightly).toOption.map fun schedule =>
        schedule.next (fixedOffset 0) (atMinute yearFifty)) = some none ∧
      ((parseHeartbeatSchedule nightly).toOption.any fun schedule =>
        schedule.expressions.any fun expression => matchesAt expression (yearFifty + 60)) = true ∧
      60 * minuteMs ≤ searchHorizonMs ∧
      -lastMinute ≤ yearFifty ∧ yearFifty + 60 ≤ lastMinute := by
  refine ⟨?_, ?_, ?_, ?_⟩ <;> decide +kernel

end Heartbeat

end CopilotFleet
