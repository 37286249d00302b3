import CopilotFleet.Usage.Report
import Mathlib.Algebra.Order.BigOperators.Group.List

/-!
# The Rows of a Usage Report

The rows of a report and its totals are added up side by side, from the same
increments, and in doubles. They agree all the same: what is added is whole in
its units, credits in billionths and tokens as they are, and a sum of whole
numbers is exact as long as it is small. A credit amount is not a whole number,
but it is close enough to one of its units that turning it into units and back
loses nothing (`units_quantity`). So the rows come to the totals for as long as
these are below `2 ^ 50` units (`rows_total`).

## Main definitions

* `Whole`: An amount is a whole number of units.
* `Adds`: What holds while a report is made.

## Theorems

* `units_quantity`: From units to an amount and back.
* `small_of_units`: A sum of which little is shown was small.
* `units_sum`: Adding whole amounts.
* `visitKey_adds`: One key of one snapshot.
* `rows_total`: The rows come to the totals.
-/

namespace CopilotFleet

namespace Usage

open Utf16 Doubles

/-! ### Units -/

/-- An amount is a whole number of units. -/
def Whole (key : UsageAmountKey) (value : ℚ) : Prop := ∃ n : ℕ, units key value = n

theorem units_of_credits (value : ℚ) :
    units .aiCredits value = round (rounded (value * 10 ^ 9)) := if_pos rfl

theorem units_of_tokens {key : UsageAmountKey} (h : key ≠ .aiCredits) (value : ℚ) :
    units key value = value := if_neg h

theorem quantity_of_credits (value : ℚ) :
    quantity .aiCredits value = rounded (value / 10 ^ 9) := if_pos rfl

theorem quantity_of_tokens {key : UsageAmountKey} (h : key ≠ .aiCredits) (value : ℚ) :
    quantity key value = value := if_neg h

/-- Credits are rounded to whole units, whatever they are. -/
theorem whole_credits {value : ℚ} (h : 0 ≤ value) : Whole .aiCredits value := by
  have hround : 0 ≤ round (rounded (value * 10 ^ 9)) := by
    have hnonneg : 0 ≤ rounded (value * 10 ^ 9) := rounded_nonneg (mul_nonneg h (by norm_num))
    exact Int.floor_nonneg.mpr (add_nonneg hnonneg (by norm_num))
  rcases Int.eq_ofNat_of_zero_le hround with ⟨n, hn⟩
  refine ⟨n, ?_⟩
  rw [units_of_credits, hn, Int.cast_natCast]

/-- What is turned into an amount from whole units is a whole number of them. -/
theorem whole_quantity (key : UsageAmountKey) (n : ℕ) : Whole key (quantity key (rounded n)) := by
  by_cases hkey : key = .aiCredits
  · rw [hkey, quantity_of_credits]
    refine whole_credits (rounded_nonneg ?_)
    exact div_nonneg (rounded_nonneg (Nat.cast_nonneg n)) (by norm_num)
  · rcases rounded_whole n with ⟨m, hm⟩
    refine ⟨m, ?_⟩
    rw [units_of_tokens hkey, quantity_of_tokens hkey, hm]

/-- A reading is a whole number of units. -/
theorem whole_reading {visit : Visit} {key : UsageAmountKey} {reading : ℚ≥0}
    (h : visit.reading key = some reading) : Whole key reading := by
  by_cases hkey : key = .aiCredits
  · rw [hkey]
    exact whole_credits reading.cast_nonneg
  · have hget : visit.sample.amounts.get key = some reading := by
      unfold Visit.reading at h
      split at h
      · cases h
      · split at h
        · cases h
        · exact h
    rcases Readings.get_tokens hkey hget with ⟨n, hn⟩
    refine ⟨n, ?_⟩
    rw [units_of_tokens hkey, hn]
    rfl

/-- What a double of credits and a double of its units are off by. -/
theorem credits_bounds {value : ℚ} (h : 0 ≤ value) :
    (value - value / 2 ^ 53 ≤ 10 ^ 9 * rounded (value / 10 ^ 9) ∧
      10 ^ 9 * rounded (value / 10 ^ 9) ≤ value + value / 2 ^ 53) ∧
    rounded (value * 10 ^ 9) ≤ value * 10 ^ 9 + value * 10 ^ 9 / 2 ^ 53 ∧
      value * 10 ^ 9 - value * 10 ^ 9 / 2 ^ 53 ≤ rounded (value * 10 ^ 9) := by
  have hquotient : 0 ≤ value / 10 ^ 9 := div_nonneg h (by norm_num)
  have hproduct : 0 ≤ value * 10 ^ 9 := mul_nonneg h (by norm_num)
  have hdown := rounded_bounds hquotient
  have hup := rounded_bounds hproduct
  refine ⟨⟨?_, ?_⟩, hup.2, hup.1⟩
  · linarith
  · linarith

/-- From units to an amount and back. -/
theorem units_quantity {key : UsageAmountKey} {n : ℕ} (h : n < 2 ^ 51) :
    units key (quantity key n) = n := by
  by_cases hkey : key = .aiCredits
  · rw [hkey, quantity_of_credits, units_of_credits]
    have hbound : (n : ℚ) + 1 ≤ 2 ^ 51 := by exact_mod_cast h
    have hn : (0 : ℚ) ≤ n := Nat.cast_nonneg n
    have hcredits := rounded_nonneg (div_nonneg hn (by norm_num : (0 : ℚ) ≤ 10 ^ 9))
    have hdown := (credits_bounds hn).1
    have hup := (credits_bounds hcredits).2
    -- Two roundings move it by less than half a unit.
    have hfloor : ⌊rounded (rounded (n / 10 ^ 9) * 10 ^ 9) + 1 / 2⌋ = (n : ℤ) := by
      rw [Int.floor_eq_iff, Int.cast_natCast]
      constructor <;> linarith
    unfold round
    rw [hfloor, Int.cast_natCast]
  · rw [units_of_tokens hkey, quantity_of_tokens hkey]

/-- A sum of which little is shown was small. -/
theorem small_of_units {key : UsageAmountKey} {sum : ℚ} (hsum : 0 ≤ sum)
    (h : units key (quantity key (rounded sum)) < 2 ^ 50) : sum < 2 ^ 51 := by
  have hrounded := rounded_bounds hsum
  by_cases hkey : key = .aiCredits
  · rw [hkey, quantity_of_credits, units_of_credits] at h
    have hcredits := rounded_nonneg
      (div_nonneg (rounded_nonneg hsum) (by norm_num : (0 : ℚ) ≤ 10 ^ 9))
    have hdown := (credits_bounds (rounded_nonneg hsum)).1
    have hup := (credits_bounds hcredits).2
    have hfloor := Int.lt_floor_add_one
      (rounded (rounded (rounded sum / 10 ^ 9) * 10 ^ 9) + 1 / 2)
    unfold round at h
    linarith
  · rw [units_of_tokens hkey, quantity_of_tokens hkey] at h
    linarith

/-- Adding whole amounts is exact as long as they are small. -/
theorem units_sum {key : UsageAmountKey} {amount value : ℚ} (hamount : Whole key amount)
    (hvalue : Whole key value) (h : units key amount + units key value < 2 ^ 51) :
    units key (quantity key (rounded (units key amount + units key value))) =
      units key amount + units key value := by
  rcases hamount with ⟨a, ha⟩
  rcases hvalue with ⟨v, hv⟩
  rw [ha, hv, ← Nat.cast_add] at h ⊢
  have hsmall : a + v < 2 ^ 51 := by exact_mod_cast h
  rw [rounded_natCast (by omega), units_quantity hsmall]

theorem whole_sum {key : UsageAmountKey} {amount value : ℚ} (hamount : Whole key amount)
    (hvalue : Whole key value) :
    Whole key (quantity key (rounded (units key amount + units key value))) := by
  rcases hamount with ⟨a, ha⟩
  rcases hvalue with ⟨v, hv⟩
  rw [ha, hv, ← Nat.cast_add]
  exact whole_quantity key (a + v)

theorem Whole.nonneg {key : UsageAmountKey} {value : ℚ} (h : Whole key value) :
    0 ≤ units key value := by
  rcases h with ⟨n, hn⟩
  rw [hn]
  exact Nat.cast_nonneg n

theorem units_zero (key : UsageAmountKey) : units key 0 = 0 := by
  cases key <;> decide +kernel

theorem whole_zero (key : UsageAmountKey) : Whole key 0 := ⟨0, by rw [units_zero]; rfl⟩

theorem amount_add (amounts : UsageAmounts) (i : UsageAmountKey) (value : ℚ)
    (key : UsageAmountKey) :
    (amounts.add i value).amount key = if key = i then
      quantity key (rounded (units key (amounts.amount key) + units key value))
      else amounts.amount key := by
  unfold UsageAmounts.add UsageAmounts.amount
  rw [UsageAmounts.get_set]
  split
  · rename_i hkey
    rw [hkey]
    rfl
  · rfl

/-! ### What holds while a report is made -/

/-- What a row has of a key, in units. -/
def weight (key : UsageAmountKey) (row : UsageReportRow) : ℚ := units key (row.amounts.amount key)

/-- Whole units were read and are shown, and the rows come to the totals while these are small. -/
structure Adds (key : UsageAmountKey) (tallied : Tallied) : Prop where
  previous : ∀ stream before, tallied.memory.previous.get stream = some before →
    ∃ n : ℕ, before.value = n
  totals : Whole key (tallied.totals.amount key)
  rows : ∀ place row, tallied.rows.get place = some row → Whole key (row.amounts.amount key)
  sum : units key (tallied.totals.amount key) < 2 ^ 50 →
    tallied.rows.total (weight key) = units key (tallied.totals.amount key)

variable (day : Int → Text) (query : UsageReportQuery) {key : UsageAmountKey}

/-- The row that an increment goes to, before it does. -/
theorem row_whole {rows : Table RowKey UsageReportRow}
    (hrows : ∀ place row, rows.get place = some row → Whole key (row.amounts.amount key))
    (increment : Increment) :
    Whole key (((rows.get (rowOf day query increment).1).getD
      (freshRow day query increment)).amounts.amount key) := by
  cases hrow : rows.get (rowOf day query increment).1 with
  | some row => exact hrows _ row hrow
  | none =>
      have hfresh : (freshRow day query increment).amounts.amount key = 0 := by
        cases key <;> rfl
      rw [Option.getD_none, hfresh]
      exact whole_zero key

/-- What the row has and what the other rows have. -/
theorem total_row (key : UsageAmountKey) (rows : Table RowKey UsageReportRow)
    (increment : Increment) :
    (rows.erase (rowOf day query increment).1).total (weight key) +
        weight key ((rows.get (rowOf day query increment).1).getD
          (freshRow day query increment)) =
      rows.total (weight key) := by
  have herase := rows.total_erase (rowOf day query increment).1 (weight key)
  cases hrow : rows.get (rowOf day query increment).1 with
  | some row =>
      rw [hrow] at herase
      exact herase
  | none =>
      have hfresh : weight key (freshRow day query increment) = 0 := by
        cases key <;> exact units_zero _
      rw [hrow] at herase
      rw [Option.getD_none, hfresh]
      exact herase

theorem record_rows {rows : Table RowKey UsageReportRow}
    (hrows : ∀ place row, rows.get place = some row → Whole key (row.amounts.amount key))
    {increment : Increment} (hdelta : Whole increment.key increment.delta) (place : RowKey)
    (row : UsageReportRow) (hrow : (record day query increment rows).get place = some row) :
    Whole key (row.amounts.amount key) := by
  unfold record at hrow
  rcases Table.get_set_some hrow with ⟨_, rfl⟩ | ⟨_, hrow⟩
  · have hbefore := row_whole day query hrows increment
    unfold UsageReportRow.plus
    dsimp only
    rw [amount_add]
    split
    · rename_i hkey
      rw [← hkey] at hdelta
      exact whole_sum hbefore hdelta
    · exact hbefore
  · exact hrows place row hrow

/-- The other rows are as they were, and this one has more by what was added. -/
theorem record_total {rows : Table RowKey UsageReportRow}
    (hrows : ∀ place row, rows.get place = some row → Whole key (row.amounts.amount key))
    {increment : Increment} (hdelta : Whole increment.key increment.delta)
    (hsmall : key = increment.key →
      rows.total (weight key) + units key increment.delta < 2 ^ 51) :
    (record day query increment rows).total (weight key) =
      rows.total (weight key) + if key = increment.key then units key increment.delta else 0 := by
  have hbefore := row_whole day query hrows increment
  have hsplit := total_row day query key rows increment
  have hother : 0 ≤ (rows.erase (rowOf day query increment).1).total (weight key) := by
    refine List.sum_nonneg fun q hq => ?_
    rcases List.mem_map.mp hq with ⟨row, hrow, rfl⟩
    rcases (Table.mem_values_iff _ row).mp hrow with ⟨place, hplace⟩
    rw [Table.get_erase] at hplace
    split at hplace
    · cases hplace
    · exact (hrows place row hplace).nonneg
  have hplus := amount_add ((rows.get (rowOf day query increment).1).getD
    (freshRow day query increment)).amounts increment.key increment.delta key
  unfold record
  dsimp only
  rw [Table.total_set_erase]
  unfold weight at hsplit hother hsmall ⊢
  unfold UsageReportRow.plus
  dsimp only
  rw [hplus]
  split
  · rename_i hkey
    rw [← hkey] at hdelta
    have hsum := units_sum hbefore hdelta (by linarith [hsmall hkey])
    rw [hsum]
    linarith
  · linarith

/-- An increment that is in the totals is in a row. -/
theorem counted_adds {tallied : Tallied} (h : Adds key tallied) {increment : Increment}
    (hdelta : Whole increment.key increment.delta) :
    Adds key { tallied with
      totals := tallied.totals.add increment.key increment.delta
      rows := record day query increment tallied.rows } where
  previous := h.previous
  totals := by
    rw [amount_add]
    split
    · rename_i hkey
      rw [← hkey] at hdelta
      exact whole_sum h.totals hdelta
    · exact h.totals
  rows := record_rows day query h.rows hdelta
  sum := by
    intro hsmall
    rw [amount_add] at hsmall ⊢
    by_cases hkey : key = increment.key
    · rw [if_pos hkey] at hsmall ⊢
      have hdelta' : Whole key increment.delta := hkey ▸ hdelta
      -- What is shown is little, so it was little before, and the rows came to it.
      have hbefore := small_of_units (add_nonneg h.totals.nonneg hdelta'.nonneg) hsmall
      have hsum := units_sum h.totals hdelta' hbefore
      rw [hsum] at hsmall ⊢
      have hrows := h.sum (by linarith [hdelta'.nonneg])
      rw [record_total day query h.rows hdelta fun _ => by rw [hrows]; exact hbefore,
        if_pos hkey, hrows]
    · rw [if_neg hkey] at hsmall ⊢
      rw [record_total day query h.rows hdelta fun hsame => absurd hsame hkey, if_neg hkey,
        add_zero]
      exact h.sum hsmall

theorem notice_adds {tallied : Tallied} (h : Adds key tallied) (increment : Increment) :
    Adds key (notice query increment tallied) := by
  unfold notice
  split
  · have hsame : (tallied.totals.set increment.key
        (some (tallied.totals.amount increment.key))).amount key = tallied.totals.amount key := by
      unfold UsageAmounts.amount
      rw [UsageAmounts.get_set]
      split
      · rename_i hkey
        rw [hkey]
        rfl
      · rfl
    refine ⟨h.previous, ?_, h.rows, ?_⟩
    · dsimp only
      rw [hsame]
      exact h.totals
    · dsimp only
      rw [hsame]
      exact h.sum
  · exact h

theorem count_adds {tallied : Tallied} (h : Adds key tallied) {increment : Increment}
    (hdelta : Whole increment.key increment.delta) :
    Adds key (count day query increment tallied) := by
  have hnoticed : Adds key (countOpening increment (notice query increment tallied)) := by
    have hnotice := notice_adds query h increment
    unfold countOpening
    split
    · exact ⟨hnotice.previous, hnotice.totals, hnotice.rows, hnotice.sum⟩
    · exact hnotice
  unfold count
  dsimp only
  split
  · exact hnoticed
  · split
    · exact counted_adds day query hnoticed hdelta
    · split
      · exact ⟨hnoticed.previous, hnoticed.totals, hnoticed.rows, hnoticed.sum⟩
      · exact hnoticed

/-- What a counter grew by is whole, and so is what is remembered of it. -/
theorem read_whole {memory : Memory}
    (h : ∀ stream before, memory.previous.get stream = some before → ∃ n : ℕ, before.value = n)
    (origin : Origin) (visit : Visit) (i : UsageAmountKey) :
    (∀ stream before, (read origin visit memory i).2.previous.get stream = some before →
      ∃ n : ℕ, before.value = n) ∧
    ∀ increment, (read origin visit memory i).1 = .increment increment →
      Whole increment.key increment.delta := by
  unfold read
  cases hreading : visit.reading i with
  | none =>
      refine ⟨h, fun increment hincrement => ?_⟩
      cases hincrement
  | some reading =>
      rcases whole_reading hreading with ⟨n, hn⟩
      dsimp only
      split
      · refine ⟨h, fun increment hincrement => ?_⟩
        cases hincrement
      · split
        · refine ⟨h, fun increment hincrement => ?_⟩
          cases hincrement
        · rename_i hforward
          refine ⟨fun stream before hbefore => ?_, fun increment hincrement => ?_⟩
          · rcases Table.get_set_some hbefore with ⟨_, rfl⟩ | ⟨_, hbefore⟩
            · exact ⟨n, hn⟩
            · exact h stream before hbefore
          · rw [← Reading.increment.inj hincrement]
            dsimp only
            rw [hn]
            cases hprevious : memory.previous.get { scope := visit.scope, key := i } with
            | none =>
                rw [Option.map_none, Option.getD_none, sub_zero]
                exact whole_quantity i n
            | some before =>
                -- A counter that had gone back would be a regression.
                rcases h _ before hprevious with ⟨m, hm⟩
                rw [hprevious, Option.any_some, decide_eq_true_eq, not_or, hn, hm] at hforward
                have hle : m ≤ n := by exact_mod_cast not_lt.mp hforward.1
                rw [Option.map_some, Option.getD_some, hm, ← Nat.cast_sub hle]
                exact whole_quantity i (n - m)

/-- One key of one snapshot. -/
theorem visitKey_adds {progress : Tallied × Bool} (h : Adds key progress.1) (origin : Origin)
    (visit : Visit) (i : UsageAmountKey) :
    Adds key (visitKey day query origin visit progress i).1 := by
  have hread := read_whole h.previous origin visit i
  have hremembered : Adds key { progress.1 with
      memory := (read origin visit progress.1.memory i).2 } :=
    ⟨hread.1, h.totals, h.rows, h.sum⟩
  unfold visitKey
  dsimp only
  split
  · exact hremembered
  · exact hremembered
  · rename_i increment hincrement
    split
    · exact count_adds day query hremembered (hread.2 increment hincrement)
    · exact hremembered

theorem visitKeys_adds (keys : List UsageAmountKey) {progress : Tallied × Bool}
    (h : Adds key progress.1) (origin : Origin) (visit : Visit) :
    Adds key (keys.foldl (visitKey day query origin visit) progress).1 := by
  induction keys generalizing progress with
  | nil => exact h
  | cons i rest ih => exact ih (visitKey_adds day query h origin visit i)

theorem visitSnapshot_adds {tallied : Tallied} (h : Adds key tallied) (legacy : List HermesScope)
    (visit : Visit) : Adds key (visitSnapshot day query legacy tallied visit) := by
  unfold visitSnapshot
  split
  · exact h
  · have hnoted : Adds key (({ tallied with
        memory := rememberOrigin legacy visit tallied.memory
        coverage := noteVisit query visit tallied.coverage }, false) : Tallied × Bool).1 :=
      ⟨h.previous, h.totals, h.rows, h.sum⟩
    have hkeys := visitKeys_adds day query usageAmountKeys hnoted
      (originOf legacy visit tallied.memory) visit
    revert hkeys
    dsimp only
    generalize usageAmountKeys.foldl _ _ = progress
    intro hkeys
    split
    · exact ⟨hkeys.previous, hkeys.totals, hkeys.rows, hkeys.sum⟩
    · exact hkeys

theorem tally_adds (all : Table SessionKey UsageStreamMetadata) (rows : List Row) :
    Adds key (tally day query all rows) := by
  have hstart (coverage : Coverage) : Adds key { coverage } := by
    have hnone : ({} : UsageAmounts).amount key = 0 := by
      cases key <;> rfl
    constructor
    · intro stream before hbefore
      rw [Table.get_empty] at hbefore
      cases hbefore
    · dsimp only
      rw [hnone]
      exact whole_zero key
    · intro place row hrow
      rw [Table.get_empty] at hrow
      cases hrow
    · intro _
      dsimp only
      rw [hnone, units_zero]
      rfl
  unfold tally
  exact List.foldlRecOn _ _ (hstart _) fun tallied htallied visit _ =>
    visitSnapshot_adds day query htallied _ visit

/-- The rows of every report come to its totals, in units and for as long as these are few. -/
theorem rows_total (localeLe : RowKey → RowKey → Bool) (current : List UsageStreamMetadata)
    (store : UsageStore) (key : UsageAmountKey)
    (hsmall : units key ((report day query localeLe current store).totals.amount key) < 2 ^ 50) :
    ((report day query localeLe current store).rows.map fun row => weight key row.2).sum =
      units key ((report day query localeLe current store).totals.amount key) := by
  have htotals : (report day query localeLe current store).totals =
      (tally day query (allMetadata current store) store.snapshots).totals := rfl
  have hrows : (report day query localeLe current store).rows =
      (tally day query (allMetadata current store) store.snapshots).rows.entries.mergeSort
        (rowOrder query localeLe) := rfl
  rw [htotals] at hsmall ⊢
  rw [← (tally_adds day query (allMetadata current store) store.snapshots).sum hsmall, hrows]
  exact (Table.total_of_perm (List.mergeSort_perm _ _).symm (weight key)).symm

/-- Tenths of a credit, read for two sessions. -/
def tenths : UsageStore :=
  let row (sequence : Nat) (id session : String) (count : Nat) : Row :=
    { nodeId := [1], sequence
      snapshot := {
        id := ofString id, sequence, sessionId := ofString session
        accounting := {
          nativeSessionId := [], counterId := ofString session, source := []
          observedAt := { text := [], time := sequence }
          amounts := { aiCredits := some (.divNat count 10) } } } }
  let stream (session : String) : UsageStreamMetadata :=
    { nodeId := [1], nodeName := [], sessionId := ofString session, sessionName := []
      backend := .copilot, role := .worker, taskId := [], taskName := [] }
  { streams := (Table.empty.set (stream "s").key (stream "s")).set (stream "t").key (stream "t")
    snapshots := [row 1 "a" "s" 1, row 2 "b" "t" 2, row 3 "c" "s" 4] }

theorem tenths_sorted : tenths.snapshots.mergeSort readBefore = tenths.snapshots :=
  List.mergeSort_of_pairwise (by decide +kernel)

/-- Doubles of tenths do not add up, but their units do. -/
theorem rows_total_tenths :
    units .aiCredits ((report (fun _ => []) { groupBy := .session } (fun _ _ => true) []
      tenths).totals.amount .aiCredits) < 2 ^ 50 ∧
    ((report (fun _ => []) { groupBy := .session } (fun _ _ => true) [] tenths).rows.map
        fun row => weight .aiCredits row.2).sum =
      units .aiCredits ((report (fun _ => []) { groupBy := .session } (fun _ _ => true) []
        tenths).totals.amount .aiCredits) := by
  have hsmall : units .aiCredits ((report (fun _ => []) { groupBy := .session } (fun _ _ => true) []
      tenths).totals.amount .aiCredits) < 2 ^ 50 := by
    unfold report tally visits
    rw [tenths_sorted]
    decide +kernel
  exact ⟨hsmall, rows_total _ _ _ _ _ _ hsmall⟩

end Usage

end CopilotFleet
