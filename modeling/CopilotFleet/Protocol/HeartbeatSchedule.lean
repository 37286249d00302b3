import CopilotFleet.Lib.Calendar
import CopilotFleet.Lib.Run
import CopilotFleet.Lib.Split
import CopilotFleet.Lib.Utf16

/-!
# Heartbeat Schedules

A schedule is a text of cron expressions, separated by semicolons or new lines,
and fires at the union of their times. It is checked as the operator wrote it
and stored in a normal form, single spaces in an expression and `; ` between
two, which is parsed again wherever the schedule is asked for its next time; a
stored text that does not parse means the default schedule.

The normal form has the expressions of the text it comes from
(`expressionSources_normalize`), so all it can lose is the limit on its length:
a separator of one character becomes one of two. That is exactly when a stored
schedule is not the one that was checked (`stored_schedule_iff`).

Numbers and calendar are the platform's and come as a `Clock`; nothing here
depends on what they are.

## Main definitions

* `Clock`: Numbers and local time.
* `parseField`, `parseExpression`, `parseHeartbeatSchedule`: Reading a schedule.
* `normalizeHeartbeatSchedule`: The form that is stored.
* `nextMatch`, `HeartbeatSchedule.next`: The next time of a schedule.
* `heartbeatSchedule`: The schedule of a stored text, cached.

## Theorems

* `expressionSources_normalize`: The normal form has the same expressions.
* `parse_normalize`: It parses the same, up to its length.
* `stored_schedule_iff`: When a stored schedule means what was saved.
-/

namespace CopilotFleet

namespace Heartbeat

open Utf16 Split

/-! ### Numbers and local time -/

/-- `new Date(at)`, read in local time; `month` and `weekday` count from 0. -/
structure LocalDate where
  year : Int
  month : Nat
  day : Nat
  weekday : Nat
  hour : Nat
  minute : Nat
  deriving DecidableEq, Repr

/-- Numbers, and the local time they stand for. -/
structure Clock (ν : Type) where
  isFinite : ν → Bool
  /-- `Math.floor(x / MINUTE_MS) * MINUTE_MS`. -/
  floorMinute : ν → ν
  plus : ν → Nat → ν
  /-- `a <= b`. -/
  le : ν → ν → Bool
  /-- `a < b`. -/
  lt : ν → ν → Bool
  /-- `Math.min`. -/
  min : ν → ν → ν
  /-- `a - b > limit`. -/
  apart : ν → ν → Nat → Bool
  /-- Nothing for an invalid date. -/
  date : ν → Option LocalDate
  /-- `new Date(year, month, day, hour).getTime()`. -/
  localTime : Int → Nat → Nat → Nat → ν

def minuteMs : Nat := 60000

def dayMs : Nat := 24 * 60 * minuteMs

/-- A schedule must fire within a year of being saved. -/
def validationHorizonMs : Nat := 366 * dayMs

/-- Wide enough for a leap-day-only expression saved the year before one. -/
def searchHorizonMs : Nat := 5 * 366 * dayMs

/-! ### Fields -/

def heartbeatScheduleMaxLength : Nat := 500

def maxExpressions : Nat := 12

/-- Why a text does not parse: with a message, or by a value that is not a text. -/
inductive ScheduleError where
  | schedule (message : Text)
  | typeError
  deriving DecidableEq, Repr

structure FieldSpec where
  label : String
  min : Nat
  max : Nat
  /-- Where `*` and `n/step` stop. -/
  rangeMax : Nat
  names : List Text := []
  nameBase : Nat := 0
  deriving Repr

def monthNames : List Text :=
  ["jan", "feb", "mar", "apr", "may", "jun", "jul", "aug", "sep", "oct", "nov", "dec"].map ofString

def weekdayNames : List Text :=
  ["sun", "mon", "tue", "wed", "thu", "fri", "sat"].map ofString

def minuteField : FieldSpec := { label := "minute", min := 0, max := 59, rangeMax := 59 }

def hourField : FieldSpec := { label := "hour", min := 0, max := 23, rangeMax := 23 }

def dayField : FieldSpec := { label := "day of month", min := 1, max := 31, rangeMax := 31 }

def monthField : FieldSpec :=
  { label := "month", min := 1, max := 12, rangeMax := 12, names := monthNames, nameBase := 1 }

/-- 7 is Sunday as well as 0, but `*/2` is 0, 2, 4, 6. -/
def weekdayField : FieldSpec :=
  { label := "day of week", min := 0, max := 7, rangeMax := 6, names := weekdayNames }

/-- A number as it is written in a message. -/
def decimal (n : Nat) : Text := ofString (toString n)

def quoted (text : Text) : Text := ofString "\"" ++ text ++ ofString "\""

def isDigit (u : UInt16) : Bool := 0x30 ≤ u && u ≤ 0x39

/-- `[a-z0-9]`, in either case. -/
def isAlphanumeric (u : UInt16) : Bool :=
  isDigit u || (0x61 ≤ u && u ≤ 0x7A) || (0x41 ≤ u && u ≤ 0x5A)

/-- `toLowerCase`, as far as its result can be a text of ASCII letters: these and
    the Kelvin sign. -/
def toLowerCase (text : Text) : Text :=
  text.map fun u => if 0x41 ≤ u && u ≤ 0x5A then u + 0x20 else if u = 0x212A then 0x6B else u

/-- `Number` of a text of digits. -/
def number (text : Text) : Nat := text.foldl (fun n u => n * 10 + (u.toNat - 0x30)) 0

def invalidValue (token : Text) (spec : FieldSpec) : ScheduleError :=
  .schedule (quoted token ++ ofString " is not a valid " ++ ofString spec.label ++
    ofString " (" ++ decimal spec.min ++ ofString "-" ++ decimal spec.max ++ ofString ").")

/-- The number a token of a field stands for. -/
def tokenNumber (token : Text) (spec : FieldSpec) : Option Nat :=
  match spec.names.findIdx? (· = toLowerCase token) with
  | some index => some (index + spec.nameBase)
  | none => if token ≠ [] ∧ token.all isDigit then some (number token) else none

def fieldValue (token : Text) (spec : FieldSpec) : Except ScheduleError Nat :=
  match tokenNumber token spec with
  | some value =>
      if spec.min ≤ value ∧ value ≤ spec.max then .ok value else .error (invalidValue token spec)
  | none => .error (invalidValue token spec)

/-- What an entry of a field is made of: `*` or a value or a range, and a step. -/
structure Entry where
  range : Text
  /-- The values the range is written with, nothing for `*`. -/
  bounds : Option (Text × Option Text)
  step : Option Text
  deriving DecidableEq, Repr

/-- The values a range is written with. -/
def matchRange (range : Text) : Option (Option (Text × Option Text)) :=
  if range = [0x2A] then some none
  else
    match range.span isAlphanumeric with
    | ([], _) => none
    | (start, []) => some (some (start, none))
    | (start, u :: stop) =>
        if u = 0x2D ∧ stop ≠ [] ∧ stop.all isAlphanumeric then some (some (start, some stop))
        else none

/-- The regular expression of an entry; a range has no `/` in it. -/
def matchEntry (part : Text) : Option Entry :=
  match part.span (· ≠ 0x2F) with
  | (range, []) => (matchRange range).map fun bounds => { range, bounds, step := none }
  | (range, _ :: step) =>
      if step ≠ [] ∧ step.all isDigit then
        (matchRange range).map fun bounds => { range, bounds, step := some step }
      else none

/-- The loop that allows the values of an entry. -/
def allow (low high step : Nat) (allowed : List Bool) : List Bool :=
  allowed.mapIdx fun value already =>
    already || (low ≤ value && value ≤ high && (value - low) % step = 0)

/-- The values an entry runs from and to. -/
def entryRange (spec : FieldSpec) (entry : Entry) : Except ScheduleError (Nat × Nat) :=
  match entry.bounds with
  | none => .ok (spec.min, spec.rangeMax)
  | some (start, stop) => do
      let low ← fieldValue start spec
      let high ←
        match stop with
        | some stop => fieldValue stop spec
        | none => .ok (if entry.step.isSome then spec.rangeMax else low)
      .ok (low, high)

def parseEntry (spec : FieldSpec) (allowed : List Bool) (part : Text) :
    Except ScheduleError (List Bool) :=
  match matchEntry part with
  | none =>
      .error (.schedule (quoted part ++ ofString " is not a valid " ++ ofString spec.label ++
        ofString " entry."))
  | some entry =>
      let step := (entry.step.map number).getD 1
      if step < 1 then
        .error (.schedule (ofString "The " ++ ofString spec.label ++
          ofString " step must be at least 1."))
      else do
        let (low, high) ← entryRange spec entry
        if high < low then
          .error (.schedule (ofString "The " ++ ofString spec.label ++ ofString " range " ++
            quoted entry.range ++ ofString
              " must run from low to high; split a wrap-around into two ranges."))
        else .ok (allow low high step allowed)

def parseField (text : Text) (spec : FieldSpec) : Except ScheduleError (List Bool) :=
  (text.splitOn 0x2C).foldlM (parseEntry spec) (List.replicate (spec.max + 1) false)

/-! ### Expressions -/

structure Expression where
  minutes : List Bool
  hours : List Bool
  days : List Bool
  months : List Bool
  weekdays : List Bool
  /-- When both day fields are restricted, a day matches either. -/
  eitherDay : Bool
  deriving DecidableEq, Repr

def macros : List (Text × Text) :=
  [("@hourly", "0 * * * *"), ("@daily", "0 0 * * *"), ("@midnight", "0 0 * * *"),
    ("@weekly", "0 0 * * 0"), ("@monthly", "0 0 1 * *"), ("@yearly", "0 0 1 1 *"),
    ("@annually", "0 0 1 1 *")].map fun entry => (ofString entry.1, ofString entry.2)

/-- The names every object has, as far as they are lower case. -/
def inheritedNames : List Text := [ofString "constructor", ofString "__proto__"]

/-- The text a macro stands for, or the text itself. -/
def expanded (text : Text) : Except ScheduleError Text :=
  if toLowerCase text ∈ inheritedNames then .error .typeError
  else .ok ((macros.lookup (toLowerCase text)).getD text)

def unrestricted (field : Text) : Bool := field.head? = some 0x2A

def parseExpression (text : Text) : Except ScheduleError Expression := do
  let source ← expanded text
  match source.splitOn 0x20 with
  | [minute, hour, day, month, weekday] => do
      let minutes ← parseField minute minuteField
      let hours ← parseField hour hourField
      let days ← parseField day dayField
      let months ← parseField month monthField
      let weekdays ← parseField weekday weekdayField
      .ok
        { minutes, hours, days, months
          weekdays := if weekdays.getD 7 false then weekdays.set 0 true else weekdays
          eitherDay := !unrestricted day && !unrestricted weekday }
  | _ =>
      .error (.schedule (quoted text ++ ofString
        " needs five fields: minute, hour, day of month, month and day of week."))

def isSeparator (u : UInt16) : Bool := u = 0x3B || u = 0x0D || u = 0x0A

/-- An expression with single spaces, or nothing. -/
def tidied (part : Text) : Text := [0x20].intercalate (pieces isSpace (trim isSpace part))

def expressionSources (text : Text) : List Text :=
  ((pieces isSeparator text).map tidied).filter (· ≠ [])

def separator : Text := [0x3B, 0x20]

/-- Single-spaced fields, expressions joined by `; `; does not validate. -/
def normalizeHeartbeatSchedule (text : Text) : Text :=
  separator.intercalate (expressionSources text)

structure HeartbeatSchedule where
  source : Text
  expressions : List Expression
  deriving DecidableEq, Repr

def parseHeartbeatSchedule (text : Text) : Except ScheduleError HeartbeatSchedule :=
  if heartbeatScheduleMaxLength < text.length then
    .error (.schedule (ofString "A schedule can be at most " ++ decimal heartbeatScheduleMaxLength ++
      ofString " characters."))
  else if expressionSources text = [] then
    .error (.schedule (ofString "Enter at least one cron expression."))
  else if maxExpressions < (expressionSources text).length then
    .error (.schedule (ofString "A schedule can combine at most " ++ decimal maxExpressions ++
      ofString " expressions."))
  else do
    let expressions ← (expressionSources text).mapM parseExpression
    .ok { source := separator.intercalate (expressionSources text), expressions }

/-! ### The next time -/

section

variable {ν : Type} (clock : Clock ν)

def dayMatches (expression : Expression) (date : LocalDate) : Bool :=
  let day := expression.days.getD date.day false
  let weekday := expression.weekdays.getD date.weekday false
  if expression.eitherDay then day || weekday else day && weekday

/-- `indexOf(true, start)`. -/
def indexOfTrue (allowed : List Bool) (start : Nat) : Option Nat :=
  ((allowed.drop start).findIdx? id).map (start + ·)

/-- The time the search goes on at, or nothing where it ends. -/
def candidate (expression : Expression) (now : ν) (date : LocalDate) : Option ν :=
  if !expression.months.getD (date.month + 1) false then
    some (clock.localTime date.year (date.month + 1) 1 0)
  else if !dayMatches expression date then
    some (clock.localTime date.year date.month (date.day + 1) 0)
  else if !expression.hours.getD date.hour false then
    some (clock.localTime date.year date.month date.day (date.hour + 1))
  else if !expression.minutes.getD date.minute false then
    match indexOfTrue expression.minutes (date.minute + 1) with
    | none => some (clock.localTime date.year date.month date.day (date.hour + 1))
    | some minute => some (clock.plus now ((minute - date.minute) * minuteMs))
  else none

/-- The loop of `nextMatch`. -/
def search (expression : Expression) (limit : ν) : Nat → ν → Option ν
  | 0, _ => none
  | guard + 1, now =>
      if clock.le now limit then
        match clock.date now with
        -- Nothing matches an invalid date, and no candidate is later than it.
        | none => search expression limit guard (clock.plus now minuteMs)
        | some date =>
            match candidate clock expression now date with
            | none => some now
            | some later =>
                search expression limit guard
                  (if clock.lt now later then later else clock.plus now minuteMs)
      else none

def nextMatch (expression : Expression) (after limit : ν) : Option ν :=
  search clock expression limit 1000000 (clock.plus (clock.floorMinute after) minuteMs)

/-- One turn of the loop of `next`. -/
def earlier (after : ν) (earliest : Option ν) (expression : Expression) : Option ν :=
  let horizon := clock.plus after searchHorizonMs
  let limit := (earliest.map fun time => clock.min time horizon).getD horizon
  match nextMatch clock expression after limit, earliest with
  | none, _ => earliest
  | some found, none => some found
  | some found, some time => if clock.lt found time then some found else some time

/-- The first scheduled minute strictly after a time, if one exists. -/
def HeartbeatSchedule.next (schedule : HeartbeatSchedule) (after : ν) : Option ν :=
  if clock.isFinite after then schedule.expressions.foldl (earlier clock after) none else none

/-- Why a text cannot be saved as a schedule, or nothing when it can. -/
def heartbeatScheduleProblem (text : Text) (now : ν) : Except ScheduleError (Option Text) :=
  match parseHeartbeatSchedule text with
  | .ok schedule =>
      if (schedule.next clock now).all fun time => clock.apart time now validationHorizonMs then
        .ok (some (ofString "The schedule never runs within the next year."))
      else .ok none
  | .error (.schedule message) => .ok (some message)
  | .error .typeError => .error .typeError

/-- `HeartbeatScheduleSchema` accepts a text. -/
def scheduleSchemaAccepts (now : ν) (text : Text) : Bool :=
  decide (text.length ≤ heartbeatScheduleMaxLength) &&
    decide (heartbeatScheduleProblem clock text now = .ok none)

end

/-! ### The schedule of a stored text -/

def defaultOrchestratorHeartbeatSchedule : Text := ofString "0 9-18 * * 1-5; 0 */2 * * *"

/-- The text that is parsed for a setting. -/
def settingText (text : Option Text) : Text :=
  match text.map (trim isSpace) with
  | none => defaultOrchestratorHeartbeatSchedule
  | some trimmed => if trimmed = [] then defaultOrchestratorHeartbeatSchedule else trimmed

/-- The schedule a setting describes, or the default. -/
def describedSchedule (text : Option Text) : Except ScheduleError HeartbeatSchedule :=
  match parseHeartbeatSchedule (settingText text) with
  | .ok schedule => .ok schedule
  | .error _ => parseHeartbeatSchedule defaultOrchestratorHeartbeatSchedule

/-- What the last call described. -/
abbrev Cache := Option (Option Text × HeartbeatSchedule)

/-- `heartbeatSchedule`, with its cache. -/
def heartbeatSchedule (cache : Cache) (text : Option Text) :
    Except ScheduleError HeartbeatSchedule × Cache :=
  match cache.filter fun cached => cached.1 = text with
  | some cached => (.ok cached.2, cache)
  | none =>
      match describedSchedule text with
      | .ok schedule => (.ok schedule, some (text, schedule))
      | .error error => (.error error, cache)

/-- The cache after some calls. -/
def cacheAfter (asked : List (Option Text)) : Cache :=
  Run.final (fun cache text => (heartbeatSchedule cache text).2) none asked

/-! ### What the normal form keeps -/

/-- A source of an expression: words with single spaces, and no separator in it. -/
structure Source (source : Text) : Prop where
  words : ∃ ws, Words isSpace ws ∧ source = [0x20].intercalate ws
  plain : ∀ u ∈ source, isSeparator u = false

theorem Source.trimmed {source : Text} (h : Source source) : Trimmed isSpace source := by
  rcases h.words with ⟨ws, hws, rfl⟩
  exact hws.intercalate

/-- What is tidy already stays as it is, with or without a space in front. -/
theorem Source.tidied {source run : Text} (h : Source source)
    (hrun : ∀ u ∈ run, isSpace u = true) : tidied (run ++ source) = source := by
  rcases h.words with ⟨ws, hws, rfl⟩
  have hspace : ∀ u ∈ [(0x20 : UInt16)], isSpace u = true := by
    intro u hu
    rw [List.mem_singleton.mp hu]
    decide
  unfold Heartbeat.tidied
  rw [trim_append hrun, hws.intercalate.trim,
    pieces_intercalate hspace (List.cons_ne_nil _ _) hws]

theorem source_of_mem {text source : Text} (h : source ∈ expressionSources text) :
    Source source := by
  unfold expressionSources at h
  rw [List.mem_filter, List.mem_map] at h
  rcases h with ⟨⟨part, hpart, rfl⟩, hne⟩
  have htrim : trim isSpace part ≠ [] := by
    intro hnil
    simp [tidied, hnil, pieces] at hne
  refine ⟨⟨_, words_of_trim htrim, rfl⟩, ?_⟩
  intro u hu
  rcases mem_intercalate hu with hspace | ⟨w, hw, huw⟩
  · rw [List.mem_singleton.mp hspace]
    decide
  · exact (mem_pieces hpart u (mem_of_mem_trim (mem_pieces hw u huw).2)).1

/-- The normal form has the same expressions. -/
theorem expressionSources_normalize (text : Text) :
    expressionSources (normalizeHeartbeatSchedule text) = expressionSources text := by
  have hsources : ∀ source ∈ expressionSources text, Source source :=
    fun _ hsource => source_of_mem hsource
  unfold normalizeHeartbeatSchedule
  cases hlist : expressionSources text with
  | nil => rfl
  | cons source rest =>
      rw [hlist] at hsources
      have hrest : ∀ s ∈ rest, Source s :=
        fun s hs => hsources s (List.mem_cons_of_mem source hs)
      have hspace : ∀ u ∈ [(0x20 : UInt16)], isSpace u = true := by
        intro u hu
        rw [List.mem_singleton.mp hu]
        decide
      have hgap : ∀ u ∈ [(0x20 : UInt16)], isSeparator u = false := by
        intro u hu
        rw [List.mem_singleton.mp hu]
        decide
      have hpieces : pieces isSeparator (separator.intercalate (source :: rest)) =
          source :: rest.map ([0x20] ++ ·) :=
        pieces_joined (by decide) hgap (List.cons_ne_nil _ _)
          (hsources source List.mem_cons_self).plain fun s hs => (hrest s hs).plain
      have hfirst : tidied source = source := by
        have hnone : tidied ([] ++ source) = source :=
          (hsources source List.mem_cons_self).tidied (by simp)
        rwa [List.nil_append] at hnone
      have hothers : (rest.map ([0x20] ++ ·)).map tidied = rest := by
        rw [List.map_map]
        conv_rhs => rw [← List.map_id rest]
        exact List.map_congr_left fun s hs => (hrest s hs).tidied hspace
      unfold expressionSources
      rw [hpieces, List.map_cons, hfirst, hothers, List.filter_eq_self]
      intro s hs
      simpa using (hsources s hs).trimmed.nonempty

/-- It parses the same, unless it has become too long. -/
theorem parse_normalize {text : Text} {schedule : HeartbeatSchedule}
    (h : parseHeartbeatSchedule text = .ok schedule) :
    (normalizeHeartbeatSchedule text).length ≤ heartbeatScheduleMaxLength ↔
      parseHeartbeatSchedule (normalizeHeartbeatSchedule text) = .ok schedule := by
  have hsame : ∀ stored : Text, expressionSources stored = expressionSources text →
      stored.length ≤ heartbeatScheduleMaxLength → parseHeartbeatSchedule stored = .ok schedule := by
    intro stored hsources hlength
    unfold parseHeartbeatSchedule at h ⊢
    rw [hsources, if_neg (by omega)]
    split at h
    · cases h
    · exact h
  constructor
  · exact hsame _ (expressionSources_normalize text)
  · intro hstored
    unfold parseHeartbeatSchedule at hstored
    split at hstored
    · cases hstored
    · omega

/-- A text that parses is stored as a text that reading a setting leaves alone. -/
theorem settingText_normalize {text : Text} {schedule : HeartbeatSchedule}
    (h : parseHeartbeatSchedule text = .ok schedule) :
    settingText (some (normalizeHeartbeatSchedule text)) = normalizeHeartbeatSchedule text := by
  have hne : expressionSources text ≠ [] := by
    intro hnil
    unfold parseHeartbeatSchedule at h
    rw [hnil, if_pos rfl] at h
    split at h
    · cases h
    · cases h
  have htrimmed : Trimmed isSpace (normalizeHeartbeatSchedule text) :=
    Trimmed.intercalate hne fun _ hsource => (source_of_mem hsource).trimmed
  unfold settingText
  simp only [Option.map_some, htrimmed.trim, htrimmed.nonempty, if_false]

/-- The cache never answers for another text. -/
theorem cached_described (asked : List (Option Text)) (text : Option Text) :
    (heartbeatSchedule (cacheAfter asked) text).1 = describedSchedule text := by
  have hcache : ∀ cached ∈ cacheAfter asked, describedSchedule cached.1 = .ok cached.2 := by
    unfold cacheAfter
    refine Run.invariant _ (fun cache : Cache =>
      ∀ cached ∈ cache, describedSchedule cached.1 = .ok cached.2) ?_ asked none (by simp)
    intro cache asked hcache
    unfold heartbeatSchedule
    split
    · exact hcache
    · split
      · rename_i schedule hdescribed
        intro cached hcached
        rw [Option.mem_some_iff] at hcached
        rw [← hcached]
        exact hdescribed
      · exact hcache
  unfold heartbeatSchedule
  split
  · rename_i cached hcached
    rw [Option.filter_eq_some_iff] at hcached
    have hdescribed := hcache cached hcached.1
    rw [← hdescribed, of_decide_eq_true hcached.2]
  · split
    · rename_i schedule hdescribed
      exact hdescribed.symm
    · rename_i error hdescribed
      exact hdescribed.symm

/-- The stored form of a text parses, and the schedule of a setting with it fires when
    the schedule of the text does. -/
def MeansWhatWasSaved {ν : Type} (clock : Clock ν) (cache : Cache) (text : Text) : Prop :=
  ∃ original stored described, parseHeartbeatSchedule text = .ok original ∧
    parseHeartbeatSchedule (normalizeHeartbeatSchedule text) = .ok stored ∧
    (heartbeatSchedule cache (some (normalizeHeartbeatSchedule text))).1 = .ok described ∧
    ∀ time, described.next clock time = original.next clock time

/-- A text the schema accepts keeps its meaning when it is stored exactly when its
    normal form is not too long, whatever was asked before. -/
theorem stored_schedule_iff {ν : Type} (clock : Clock ν) (now : ν) (asked : List (Option Text))
    (text : Text) (haccepts : scheduleSchemaAccepts clock now text) :
    MeansWhatWasSaved clock (cacheAfter asked) text ↔
      (normalizeHeartbeatSchedule text).length ≤ heartbeatScheduleMaxLength := by
  have hparse : ∃ original, parseHeartbeatSchedule text = .ok original := by
    unfold scheduleSchemaAccepts heartbeatScheduleProblem at haccepts
    cases h : parseHeartbeatSchedule text with
    | ok original => exact ⟨original, rfl⟩
    | error error =>
        rw [h] at haccepts
        cases error with
        | schedule message => simp at haccepts
        | typeError => simp at haccepts
  rcases hparse with ⟨original, horiginal⟩
  have hnormal := parse_normalize horiginal
  constructor
  · rintro ⟨original', stored, _, horiginal', hstored, _, _⟩
    unfold parseHeartbeatSchedule at hstored
    split at hstored
    · cases hstored
    · omega
  · intro hlength
    have hstored := hnormal.mp hlength
    refine ⟨original, original, original, horiginal, hstored, ?_, fun _ => rfl⟩
    rw [cached_described]
    unfold describedSchedule
    rw [settingText_normalize horiginal, hstored]

namespace Sample

/-- Whole milliseconds in a place where local time is UTC. -/
def utc : Clock Int where
  isFinite := fun _ => true
  floorMinute := fun time => time / 60000 * 60000
  plus := fun time n => time + n
  le := fun a b => decide (a ≤ b)
  lt := fun a b => decide (a < b)
  min := min
  apart := fun a b limit => decide (a - b > limit)
  date := fun time =>
    let (year, month, day) := Calendar.civil (time / 86400000)
    some
      { year, month, day
        weekday := ((time / 86400000 + 4) % 7).toNat
        hour := (time / 3600000 % 24).toNat
        minute := (time / 60000 % 60).toNat }
  localTime := fun year month day hour =>
    Calendar.dayNumber year month day * 86400000 + hour * 3600000

/-- Every quarter of an hour of the first two hours of the year's first months. -/
def plain : Text := ofString " 0,15,30,45   0-1 * jan-6/2 * "

/-- Twelve times the first minutes of midnight, with nothing but semicolons between. -/
def crowded : Text :=
  [0x3B].intercalate
    (List.replicate 12 (ofString "0,1,2,3,4,5,6,7,8,9,10,11,12,13 00 * * *"))

end Sample

theorem stored_schedule_iff_plain :
    (normalizeHeartbeatSchedule Sample.plain = ofString "0,15,30,45 0-1 * jan-6/2 *" ∧
      (normalizeHeartbeatSchedule Sample.plain).length ≤ heartbeatScheduleMaxLength) ∧
    (MeansWhatWasSaved Sample.utc (cacheAfter [none]) Sample.plain ↔
      (normalizeHeartbeatSchedule Sample.plain).length ≤ heartbeatScheduleMaxLength) :=
  ⟨by decide +kernel,
    stored_schedule_iff Sample.utc 0 [none] Sample.plain (by decide +kernel)⟩

/-- A text of 491 characters that the schema accepts: its normal form has 502, does
    not parse, and is read as the default schedule, which fires at two o'clock where
    the text fires a minute past midnight. -/
theorem crowded_schedule_lost :
    scheduleSchemaAccepts Sample.utc 0 Sample.crowded = true ∧
      ¬MeansWhatWasSaved Sample.utc (cacheAfter []) Sample.crowded ∧
      ((parseHeartbeatSchedule Sample.crowded).toOption.map fun schedule =>
        schedule.next Sample.utc 0) = some (some 60000) ∧
      ((heartbeatSchedule none (some (normalizeHeartbeatSchedule Sample.crowded))).1.toOption.map
        fun schedule => schedule.next Sample.utc 0) = some (some 7200000) := by
  refine ⟨by decide +kernel, ?_, by decide +kernel, by decide +kernel⟩
  rintro ⟨_, stored, _, _, hstored, _, _⟩
  have hlong : (parseHeartbeatSchedule (normalizeHeartbeatSchedule Sample.crowded)).toOption =
      none := by decide +kernel
  rw [hstored] at hlong
  cases hlong

end Heartbeat

end CopilotFleet
