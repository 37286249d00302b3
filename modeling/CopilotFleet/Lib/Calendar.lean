import Mathlib.Order.Monotone.Basic
import Mathlib.Tactic.Push

/-!
# The Gregorian Calendar

Days counted from 1970-01-01, in both directions, and the dates they are. Years
are taken to begin in March, so that the leap day is the last of its year and
the months before it always have the same lengths; eras of 400 years repeat.

A day number is linear in the day of the month, and a month beyond December is
one of a later year. So the first of the next month is a day number too, and the
days of a month are those from its first up to that one (`civil_eq_iff`). That is
all a program needs to know that skipping to the next month skips nothing else.

## Main definitions

* `civil`: The date of a day.
* `dayNumber`: The day of a date.
* `isLeap`, `daysInMonth`: How long a month is.

## Theorems

* `year_spec`: A day lies in the year it is given.
* `dayNumber_succ`: The length of a month is in the calendar's table.
* `civil_spec`: A day is the day of its date.
* `civil_eq_iff`: The days of one month, by the day numbers around it.
* `civil_year_lt`: The years of days, by their first days.
-/

namespace CopilotFleet

namespace Calendar

/-- The year of a day of an era. -/
def yearOfEra (dayOfEra : Int) : Int :=
  (dayOfEra - dayOfEra / 1460 + dayOfEra / 36524 - dayOfEra / 146096) / 365

/-- The first day of a year of an era. -/
def eraStart (yearOfEra : Int) : Int := 365 * yearOfEra + yearOfEra / 4 - yearOfEra / 100

/-- The first of March of a year, counted from that of the year 0. -/
def yearStart (year : Int) : Int := year / 400 * 146097 + eraStart (year % 400)

/-- The first day of a month of a year, months and days counting from March. -/
def monthStart (march : Int) : Int := (153 * march + 2) / 5

/-- The days from the first of March of the year 0 to 1970. -/
def epoch : Int := 719468

/-- The date of a day counted from 1970; months count from 0. -/
def civil (day : Int) : Int × Nat × Nat :=
  let shifted := day + epoch
  let year := yearOfEra (shifted % 146097) + shifted / 146097 * 400
  let dayOfYear := shifted - yearStart year
  let march := (5 * dayOfYear + 2) / 153
  let month := if march < 10 then march + 2 else march - 10
  (year + (if month < 2 then 1 else 0), month.toNat, (dayOfYear - monthStart march + 1).toNat)

/-- The day of a date, counted from 1970. A month beyond December is one of a later year,
    and a day beyond its month one of a later month. -/
def dayNumber (year : Int) (month day : Nat) : Int :=
  let year := year + month / 12
  let month : Int := month % 12
  let started := if month < 2 then year - 1 else year
  let march := if month < 2 then month + 10 else month - 2
  yearStart started + monthStart march + day - 1 - epoch

def isLeap (year : Int) : Bool := year % 4 = 0 && (year % 100 ≠ 0 || year % 400 = 0)

def daysInMonth (year : Int) (month : Nat) : Nat :=
  match month with
  | 1 => if isLeap year then 29 else 28
  | 3 | 5 | 8 | 10 => 30
  | _ => 31

example : dayNumber 1970 0 1 = 0 := by decide

/-! ### Years -/

theorem yearOfEra_mono {a b : Int} (ha : 0 ≤ a) (hab : a ≤ b) (hb : b < 146097) :
    yearOfEra a ≤ yearOfEra b := by
  unfold yearOfEra
  refine Int.ediv_le_ediv (by decide) ?_
  -- The last day of an era is taken back where a day of leap years is given.
  by_cases hlast : b = 146096
  · subst hlast
    omega
  · have hzero : b / 146096 = 0 := by omega
    have hzero' : a / 146096 = 0 := by omega
    omega

theorem eraStart_parts (c q r : Int) (hq : 0 ≤ q ∧ q < 25) (hr : 0 ≤ r ∧ r < 4) :
    eraStart (100 * c + 4 * q + r) = 36524 * c + 1461 * q + 365 * r := by
  unfold eraStart
  omega

/-- The year of a day, given how many leap days and lost ones came before it. -/
theorem yearOfEra_of_quotients {day four century y : Int} (hfour : day / 1460 = four)
    (hcentury : day / 36524 = century) (hlast : day / 146096 = 0)
    (hyear : 365 * y ≤ day - four + century) (hnext : day - four + century < 365 * y + 365) :
    yearOfEra day = y := by
  unfold yearOfEra
  rw [hfour, hcentury, hlast]
  omega

theorem yearOfEra_first (y : Nat) (h : y < 400) : yearOfEra (eraStart (y : Nat)) = y := by
  obtain ⟨c, q, r, hc, hq, hr, hy⟩ : ∃ c q r : Int, (0 ≤ c ∧ c < 4) ∧ (0 ≤ q ∧ q < 25) ∧
      (0 ≤ r ∧ r < 4) ∧ (y : Int) = 100 * c + 4 * q + r :=
    ⟨y / 100, y % 100 / 4, y % 4, by omega, by omega, by omega, by omega⟩
  rw [hy, eraStart_parts c q r hq hr]
  have hfour : (36524 * c + 1461 * q + 365 * r) / 1460 = 25 * c + q := by omega
  have hcentury : (36524 * c + 1461 * q + 365 * r) / 36524 = c := by omega
  exact yearOfEra_of_quotients hfour hcentury (by omega) (by omega) (by omega)

theorem yearOfEra_last (y : Nat) (h : y < 400) :
    yearOfEra (eraStart ((y : Nat) + 1) - 1) = y := by
  obtain ⟨c, q, r, hc, hq, hr, hy⟩ : ∃ c q r : Int, (0 ≤ c ∧ c ≤ 4) ∧ (0 ≤ q ∧ q < 25) ∧
      (0 ≤ r ∧ r < 4) ∧ (y : Int) + 1 = 100 * c + 4 * q + r :=
    ⟨(y + 1) / 100, (y + 1) % 100 / 4, (y + 1) % 4, by omega, by omega, by omega, by omega⟩
  have hbound : 100 * c + 4 * q + r ≤ 400 := by omega
  rw [hy, eraStart_parts c q r hq hr]
  have hfour : (36524 * c + 1461 * q + 365 * r - 1) / 1460 = 25 * c + q := by omega
  by_cases hround : q = 0 ∧ r = 0
  · -- The year before a century is no leap year.
    rcases hround with ⟨rfl, rfl⟩
    have hcentury : (36524 * c + 1461 * 0 + 365 * 0 - 1) / 36524 = c - 1 := by omega
    exact yearOfEra_of_quotients hfour hcentury (by omega) (by omega) (by omega)
  · have hcentury : (36524 * c + 1461 * q + 365 * r - 1) / 36524 = c := by omega
    exact yearOfEra_of_quotients hfour hcentury (by omega) (by omega) (by omega)

theorem yearStart_succ (year : Int) :
    yearStart (year + 1) = yearStart year + if isLeap (year + 1) then 366 else 365 := by
  unfold yearStart eraStart isLeap
  simp only [Bool.and_eq_true, decide_eq_true_eq, Bool.or_eq_true]
  by_cases h4 : (year + 1) % 4 = 0
  · by_cases h100 : (year + 1) % 100 = 0
    · by_cases h400 : (year + 1) % 400 = 0
      · rw [if_pos (by omega)]
        have hera : (year + 1) / 400 = year / 400 + 1 := by omega
        omega
      · rw [if_neg (by omega)]
        omega
    · rw [if_pos (by omega)]
      omega
  · rw [if_neg (by omega)]
    omega

/-- A day of an era lies in its year. -/
theorem yearOfEra_spec {day : Int} (h : 0 ≤ day) (hlast : day < 146097) :
    0 ≤ yearOfEra day ∧ yearOfEra day < 400 ∧ eraStart (yearOfEra day) ≤ day ∧
      day < if yearOfEra day = 399 then 146097 else eraStart (yearOfEra day + 1) := by
  have hlow : 0 ≤ yearOfEra day := yearOfEra_mono (Int.le_refl 0) h hlast
  have hhigh : yearOfEra day ≤ 399 :=
    yearOfEra_mono h (show day ≤ 146096 by omega) (by decide)
  obtain ⟨year, hyear⟩ : ∃ year : Nat, yearOfEra day = year := ⟨_, (Int.toNat_of_nonneg hlow).symm⟩
  rw [hyear] at hlow hhigh ⊢
  have hbound : year < 400 := by omega
  refine ⟨hlow, by omega, ?_, ?_⟩
  · -- A day before its year would be one of the year before.
    by_contra hbefore
    cases year with
    | zero =>
        have hzero : eraStart ((0 : Nat) : Int) = 0 := by decide
        omega
    | succ y =>
        have hmono := yearOfEra_mono h
          (show day ≤ eraStart ((y : Nat) + 1) - 1 by push_cast at hbefore; omega)
          (by unfold eraStart; omega)
        rw [yearOfEra_last y (by omega)] at hmono
        omega
  · by_cases hend : (year : Int) = 399
    · rw [if_pos hend]
      exact hlast
    · rw [if_neg hend]
      by_contra hafter
      have hmono := yearOfEra_mono (show 0 ≤ eraStart ((year + 1 : Nat) : Int) by
        unfold eraStart; omega) (show eraStart ((year + 1 : Nat) : Int) ≤ day by
          push_cast; omega) hlast
      rw [yearOfEra_first (year + 1) (by omega)] at hmono
      omega

/-- The year of a day begins no later, and the next one later. -/
theorem year_spec (shifted : Int) :
    let year := yearOfEra (shifted % 146097) + shifted / 146097 * 400
    yearStart year ≤ shifted ∧ shifted < yearStart (year + 1) := by
  intro year
  have hrange := yearOfEra_spec (Int.emod_nonneg shifted (by decide))
    (Int.emod_lt_of_pos shifted (by decide))
  generalize hy : yearOfEra (shifted % 146097) = y at hrange
  have hyear : year = y + shifted / 146097 * 400 := by rw [← hy]
  have hera : year / 400 = shifted / 146097 := by omega
  have hof : year % 400 = y := by omega
  have hsplit : shifted / 146097 * 146097 + shifted % 146097 = shifted := by omega
  rcases hrange with ⟨hlow, hhigh, hfirst, hlast⟩
  constructor
  · unfold yearStart
    rw [hera, hof]
    omega
  · unfold yearStart
    by_cases hend : y = 399
    · rw [if_pos hend] at hlast
      have hera' : (year + 1) / 400 = shifted / 146097 + 1 := by omega
      have hof' : (year + 1) % 400 = 0 := by omega
      have hzero : eraStart 0 = 0 := by decide
      rw [hera', hof', hzero]
      omega
    · rw [if_neg hend] at hlast
      have hera' : (year + 1) / 400 = shifted / 146097 := by omega
      have hof' : (year + 1) % 400 = y + 1 := by omega
      rw [hera', hof']
      omega

/-! ### Months -/

theorem dayNumber_add (year : Int) (month day n : Nat) :
    dayNumber year month (day + n) = dayNumber year month day + n := by
  unfold dayNumber
  simp only [Int.natCast_add]
  omega

/-- The first of a month from March on. -/
theorem dayNumber_late (year : Int) {month : Nat} (hlow : 2 ≤ month) (hhigh : month < 12)
    (day : Nat) :
    dayNumber year month day = yearStart year + monthStart (month - 2) + day - 1 - epoch := by
  unfold dayNumber
  have hyear : year + (month : Int) / 12 = year := by omega
  have hmonth : (month : Int) % 12 = month := by omega
  simp only [hyear, hmonth, show ¬(month : Int) < 2 by omega, if_false]

/-- January and February belong to the year before. -/
theorem dayNumber_early (year : Int) {month : Nat} (hmonth : month < 2) (day : Nat) :
    dayNumber year month day =
      yearStart (year - 1) + monthStart (month + 10) + day - 1 - epoch := by
  unfold dayNumber
  have hyear : year + (month : Int) / 12 = year := by omega
  have hof : (month : Int) % 12 = month := by omega
  simp only [hyear, hof, show (month : Int) < 2 by omega, if_true]

theorem dayNumber_wrap (year : Int) (day : Nat) :
    dayNumber year 12 day = dayNumber (year + 1) 0 day := by
  unfold dayNumber
  simp

/-- The first of the next month is as far as the month is long. -/
theorem dayNumber_succ (year : Int) {month : Nat} (hmonth : month < 12) :
    dayNumber year (month + 1) 1 = dayNumber year month 1 + daysInMonth year month := by
  by_cases hearly : month < 2
  · rw [dayNumber_early year hearly]
    by_cases hjanuary : month = 0
    · subst hjanuary
      rw [dayNumber_early year (show 0 + 1 < 2 by decide)]
      simp [monthStart, daysInMonth]
      omega
    · -- March begins the year after the leap day.
      have hfebruary : month = 1 := by omega
      subst hfebruary
      have hyear := yearStart_succ (year - 1)
      rw [Int.sub_add_cancel] at hyear
      rw [dayNumber_late year (by decide) (by decide), hyear]
      simp only [monthStart, daysInMonth]
      by_cases hleap : isLeap year = true
      · rw [if_pos hleap, if_pos hleap]
        omega
      · rw [if_neg hleap, if_neg hleap]
        omega
  · by_cases hdecember : month = 11
    · subst hdecember
      rw [dayNumber_wrap, dayNumber_early (year + 1) (by decide), dayNumber_late year (by decide)
        (by decide), Int.add_sub_cancel]
      simp [monthStart, daysInMonth]
      omega
    · rw [dayNumber_late year (by omega) (by omega), dayNumber_late year (by omega) hmonth]
      have hcases : month = 2 ∨ month = 3 ∨ month = 4 ∨ month = 5 ∨ month = 6 ∨ month = 7 ∨
          month = 8 ∨ month = 9 ∨ month = 10 := by omega
      rcases hcases with rfl | rfl | rfl | rfl | rfl | rfl | rfl | rfl | rfl
      all_goals
        simp [monthStart, daysInMonth]
        omega

theorem daysInMonth_pos (year : Int) (month : Nat) : 0 < daysInMonth year month := by
  unfold daysInMonth
  split
  · by_cases hleap : isLeap year = true
    · rw [if_pos hleap]
      decide
    · rw [if_neg hleap]
      decide
  all_goals decide

theorem daysInMonth_le (year : Int) (month : Nat) : daysInMonth year month ≤ 31 := by
  unfold daysInMonth
  split
  · by_cases hleap : isLeap year = true
    · rw [if_pos hleap]
      decide
    · rw [if_neg hleap]
      decide
  all_goals decide

/-- The date of a day names it, and the next month has not begun. -/
theorem civil_spec (day : Int) :
    (civil day).2.1 < 12 ∧ 1 ≤ (civil day).2.2 ∧
      dayNumber (civil day).1 (civil day).2.1 (civil day).2.2 = day ∧
      day < dayNumber (civil day).1 ((civil day).2.1 + 1) 1 := by
  rcases year_spec (day + epoch) with ⟨hfirst, hlast⟩
  unfold civil
  simp only
  generalize yearOfEra ((day + epoch) % 146097) + (day + epoch) / 146097 * 400 = year
    at hfirst hlast ⊢
  have hlength := yearStart_succ year
  -- The day lies in its March year, by its length.
  have hyear : day + epoch - yearStart year ≤ 365 := by
    by_cases hleap : isLeap (year + 1) = true
    · rw [if_pos hleap] at hlength
      omega
    · rw [if_neg hleap] at hlength
      omega
  generalize hof : day + epoch - yearStart year = dayOfYear at hyear ⊢
  have hzero : 0 ≤ dayOfYear := by omega
  generalize hmarch : (5 * dayOfYear + 2) / 153 = march
  have hmonth : 0 ≤ march ∧ march < 12 ∧ monthStart march ≤ dayOfYear ∧
      dayOfYear < monthStart (march + 1) := by
    unfold monthStart
    omega
  rcases hmonth with ⟨hlow, hhigh, hbegun, hover⟩
  have hday : ((dayOfYear - monthStart march + 1).toNat : Int) =
      dayOfYear - monthStart march + 1 := Int.toNat_of_nonneg (by omega)
  -- March to December keep the year; January and February belong to the next.
  by_cases hspring : march < 10
  · simp only [hspring, if_true]
    have hnat : ((march + 2).toNat : Int) = march + 2 := Int.toNat_of_nonneg (by omega)
    rw [if_neg (by omega), Int.add_zero]
    refine ⟨by omega, by omega, ?_, ?_⟩
    · rw [dayNumber_late year (by omega) (by omega), hday, hnat,
        show march + 2 - 2 = march by omega]
      omega
    · -- The month after December is the January of the next year.
      by_cases hdecember : march = 9
      · subst hdecember
        have hnumber : (((9 : Int) + 2).toNat + 1) = 12 := by decide
        have hten : monthStart (9 + 1) = monthStart ((0 : Nat) + 10) := by decide
        rw [hnumber, dayNumber_wrap, dayNumber_early (year + 1) (by decide), Int.add_sub_cancel,
          ← hten]
        omega
      · rw [dayNumber_late year (by omega) (by omega), Int.natCast_add, hnat,
          show march + 2 + (1 : Nat) - 2 = march + 1 by omega]
        omega
  · simp only [hspring, if_false]
    have hnat : ((march - 10).toNat : Int) = march - 10 := Int.toNat_of_nonneg (by omega)
    rw [if_pos (by omega)]
    refine ⟨by omega, by omega, ?_, ?_⟩
    · rw [dayNumber_early (year + 1) (by omega), hday, hnat, Int.add_sub_cancel,
        show march - 10 + 10 = march by omega]
      omega
    · by_cases hfebruary : march = 11
      · subst hfebruary
        have hnumber : (((11 : Int) - 10).toNat + 1) = 2 := by decide
        have hbegin : monthStart (((2 : Nat) : Int) - 2) = 0 := by decide
        rw [hnumber, dayNumber_late (year + 1) (by decide) (by decide), hbegin]
        omega
      · rw [dayNumber_early (year + 1) (by omega), Int.natCast_add, hnat, Int.add_sub_cancel,
          show march - 10 + (1 : Nat) + 10 = march + 1 by omega]
        omega

/-- The first day of the months in a row, the January of the year 0 being the first. -/
def firstOf (index : Int) : Int := dayNumber (index / 12) (index % 12).toNat 1

theorem firstOf_lt_succ (index : Int) : firstOf index < firstOf (index + 1) := by
  have hnat : ((index % 12).toNat : Int) = index % 12 :=
    Int.toNat_of_nonneg (Int.emod_nonneg index (by decide))
  have hmonth : (index % 12).toNat < 12 := by omega
  have hlonger := dayNumber_succ (index / 12) hmonth
  have hpositive := daysInMonth_pos (index / 12) (index % 12).toNat
  have hnext : firstOf (index + 1) = dayNumber (index / 12) ((index % 12).toNat + 1) 1 := by
    unfold firstOf
    by_cases hend : (index % 12).toNat = 11
    · rw [hend, dayNumber_wrap, show (index + 1) / 12 = index / 12 + 1 by omega,
        show (index + 1) % 12 = 0 by omega]
      rfl
    · rw [show (index + 1) / 12 = index / 12 by omega,
        show ((index + 1) % 12).toNat = (index % 12).toNat + 1 by omega]
  rw [hnext, hlonger]
  unfold firstOf
  omega

theorem firstOf_month (year : Int) {month : Nat} (hmonth : month < 12) :
    firstOf (12 * year + month) = dayNumber year month 1 ∧
      firstOf (12 * year + month + 1) = dayNumber year (month + 1) 1 := by
  constructor
  · unfold firstOf
    rw [show (12 * year + month) / 12 = year by omega,
      show ((12 * year + month) % 12).toNat = month by omega]
  · unfold firstOf
    by_cases hend : month = 11
    · subst hend
      rw [dayNumber_wrap, show (12 * year + (11 : Nat) + 1) / 12 = year + 1 by omega,
        show ((12 * year + (11 : Nat) + 1) % 12).toNat = 0 by omega]
    · rw [show (12 * year + month + 1) / 12 = year by omega,
        show ((12 * year + month + 1) % 12).toNat = month + 1 by omega]

/-- A day is of a month exactly from its first up to that of the next. -/
theorem civil_eq_iff (day year : Int) {month : Nat} (hmonth : month < 12) :
    ((civil day).1 = year ∧ (civil day).2.1 = month) ↔
      dayNumber year month 1 ≤ day ∧ day < dayNumber year (month + 1) 1 := by
  rcases civil_spec day with ⟨hof, hfirst, hnumber, hnext⟩
  have hbegun : dayNumber (civil day).1 (civil day).2.1 1 ≤ day := by
    have hadd := dayNumber_add (civil day).1 (civil day).2.1 1 ((civil day).2.2 - 1)
    rw [Nat.add_sub_cancel' hfirst, hnumber] at hadd
    omega
  constructor
  · rintro ⟨rfl, rfl⟩
    exact ⟨hbegun, hnext⟩
  · rintro ⟨hlow, hhigh⟩
    -- Two months with a day in common are one.
    have hmono := strictMono_int_of_lt_succ firstOf_lt_succ
    rcases firstOf_month year hmonth with ⟨hthis, hthen⟩
    rcases firstOf_month (civil day).1 hof with ⟨hthis', hthen'⟩
    have hle := Int.lt_add_one_iff.mp (hmono.lt_iff_lt.mp (show firstOf (12 * year + month) <
      firstOf (12 * (civil day).1 + (civil day).2.1 + 1) by rw [hthis, hthen']; omega))
    have hge := Int.lt_add_one_iff.mp (hmono.lt_iff_lt.mp (show
      firstOf (12 * (civil day).1 + (civil day).2.1) < firstOf (12 * year + month + 1) by
        rw [hthis', hthen]; omega))
    constructor <;> omega

/-- The years of days, by their first days. -/
theorem civil_year_lt (day year : Int) : (civil day).1 < year ↔ day < dayNumber year 0 1 := by
  rcases civil_spec day with ⟨hof, -, -, -⟩
  rcases (civil_eq_iff day (civil day).1 hof).mp ⟨rfl, rfl⟩ with ⟨hbegun, hnext⟩
  rcases firstOf_month (civil day).1 hof with ⟨hthis, hthen⟩
  have hyear : firstOf (12 * year) = dayNumber year 0 1 := by
    simpa using (firstOf_month year (show 0 < 12 by decide)).1
  have hmono := (strictMono_int_of_lt_succ firstOf_lt_succ).monotone
  constructor
  · intro hlt
    have hle := hmono (show 12 * (civil day).1 + (civil day).2.1 + 1 ≤ 12 * year by omega)
    omega
  · intro hlt
    by_contra hge
    have hle := hmono (show 12 * year ≤ 12 * (civil day).1 + (civil day).2.1 by omega)
    omega

end Calendar

end CopilotFleet
