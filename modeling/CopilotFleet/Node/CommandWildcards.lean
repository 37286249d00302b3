import CopilotFleet.Lib.Glob
import CopilotFleet.Lib.Utf16
import Mathlib.Data.List.Infix

/-!
# Command Wildcards

A saved rule may name a folder or a command with stars in it. The match is
anchored on both sides and never goes back: the first piece begins the text,
the last one ends it, and each of the others is taken where it is first found
behind the one before (`wildcardMatch`). That is glob matching exactly
(`wildcardMatch_iff_glob`), also where the pieces would have to overlap.

## Main definitions

* `wildcardMatch`: Whether a pattern with stars covers a text.

## Theorems

* `searchParts_iff_placed`: The search succeeds where the parts have places in order.
* `wildcardMatch_iff_glob`: A wildcard covers what comes of filling its stars.
-/

namespace CopilotFleet

namespace CommandPermissions

open Utf16 Globs

def star : UInt16 := 0x2A

/-- `value.indexOf(part, offset)`. -/
def indexOf (value part : Text) (offset : Nat) : Option Nat :=
  (List.range (value.length + 1)).find? fun i =>
    decide (offset ≤ i) && part.isPrefixOf (value.drop i)

/-- Where the search for the parts between the first and the last comes to. -/
def searchParts (value : Text) (finish : Nat) : Nat → List Text → Option Nat
  | offset, [] => some offset
  | offset, part :: rest =>
      if part = [] then searchParts value finish offset rest
      else
        match indexOf value part offset with
        | none => none
        | some next =>
            if finish < next + part.length then none
            else searchParts value finish (next + part.length) rest

/-- Anchored matching with forward-only literal searches. -/
def wildcardMatch (pattern value : Text) : Bool :=
  let parts := pattern.splitOn star
  if parts.length = 1 then value = pattern
  else
    let first := parts.headD []
    let last := parts.getLastD []
    if !first.isPrefixOf value || !last.isSuffixOf value then false
    else
      let finish := value.length - last.length
      match searchParts value finish first.length (parts.drop 1).dropLast with
      | none => false
      | some offset => offset ≤ finish

theorem indexOf_eq_some {value part : Text} {offset i : Nat} (h : indexOf value part offset = some i) :
    offset ≤ i ∧ part <+: value.drop i ∧
      ∀ place, offset ≤ place → part <+: value.drop place → i ≤ place := by
  rw [indexOf, List.find?_range_eq_some] at h
  rcases h with ⟨hfound, hmem, hfirst⟩
  simp only [Bool.and_eq_true, decide_eq_true_eq, List.isPrefixOf_iff_prefix] at hfound
  refine ⟨hfound.1, hfound.2, fun place hplace hpart => ?_⟩
  by_contra hlt
  have hno := hfirst place (by omega)
  simp only [hplace, decide_true, Bool.true_and, Bool.not_eq_true', ← Bool.not_eq_true,
    List.isPrefixOf_iff_prefix] at hno
  exact hno hpart

theorem indexOf_eq_none {value part : Text} {offset : Nat} (hne : part ≠ [])
    (h : indexOf value part offset = none) (place : Nat) (hplace : offset ≤ place) :
    ¬part <+: value.drop place := by
  intro hpart
  have hlength := hpart.length_le
  rw [List.length_drop] at hlength
  have hpos := List.length_pos_iff.mpr hne
  rw [indexOf, List.find?_eq_none] at h
  have hno := h place (List.mem_range.mpr (by omega))
  simp only [hplace, decide_true, Bool.true_and, List.isPrefixOf_iff_prefix] at hno
  exact hno hpart

/-- The search succeeds exactly where the parts have places in order. -/
theorem searchParts_iff_placed {value : Text} {finish : Nat} (parts : List Text) (offset : Nat) :
    (∃ reached, searchParts value finish offset parts = some reached ∧ reached ≤ finish) ↔
      Placed value finish offset parts := by
  induction parts generalizing offset with
  | nil =>
      constructor
      · rintro ⟨reached, hreached, hle⟩
        cases hreached
        exact hle
      · exact fun h => ⟨offset, rfl, h⟩
  | cons part rest ih =>
      by_cases hpart : part = []
      · subst hpart
        rw [placed_nil_cons, ← ih offset, searchParts, if_pos rfl]
      · rw [searchParts, if_neg hpart]
        cases hindex : indexOf value part offset with
        | none =>
            constructor
            · rintro ⟨reached, hreached, _⟩
              cases hreached
            · rintro ⟨place, hplace, hfound, _⟩
              exact absurd hfound (indexOf_eq_none hpart hindex place hplace)
        | some next =>
            rcases indexOf_eq_some hindex with ⟨hle, hfound, hfirst⟩
            rw [placed_cons_of_first hle hfound hfirst]
            by_cases hpast : finish < next + part.length
            · -- Past the end nothing that follows could have a place either.
              simp only [if_pos hpast]
              constructor
              · rintro ⟨reached, hreached, _⟩
                cases hreached
              · intro hplaced
                have hreach := hplaced.le
                omega
            · simp only [if_neg hpast]
              exact ih (next + part.length)

/-- A wildcard covers exactly the texts that come of replacing each of its stars by some text. -/
theorem wildcardMatch_iff_glob (pattern value : Text) :
    wildcardMatch pattern value = true ↔ Glob star pattern value := by
  rw [glob_iff_pieces]
  unfold wildcardMatch
  cases hparts : pattern.splitOn star with
  | nil =>
      rw [List.splitOn_eq_splitOnP] at hparts
      exact absurd hparts (List.splitOnP_ne_nil _ _)
  | cons first rest =>
      rcases List.eq_nil_or_concat rest with rfl | ⟨parts, last, rfl⟩
      · -- Without a star the pattern is its one part.
        have hpattern : pattern = first := by
          have hjoined : [star].intercalate (pattern.splitOn star) = pattern :=
            List.intercalate_splitOn star
          rw [hparts, List.intercalate_singleton] at hjoined
          exact hjoined.symm
        simp only [List.length_singleton, if_true, decide_eq_true_eq]
        constructor
        · rintro rfl
          exact ⟨first, [], [], rfl, by rw [hpattern, List.append_nil], rfl⟩
        · rintro ⟨first', rest', tail, hcons, rfl, hfilled⟩
          rw [List.cons.injEq] at hcons
          rcases hcons with ⟨rfl, rfl⟩
          rw [show tail = [] from hfilled, List.append_nil, hpattern]
      · rw [List.concat_eq_append] at *
        -- With a star there is a first part, a last one, and what is searched between them.
        have hlength : (first :: (parts ++ [last])).length ≠ 1 := by
          simp only [List.length_cons, List.length_append, List.length_nil]
          omega
        have hlast : (first :: (parts ++ [last])).getLastD [] = last := by
          rw [List.getLastD_cons, List.getLastD_concat]
        have hmiddle : ((first :: (parts ++ [last])).drop 1).dropLast = parts := by
          rw [List.drop_one, List.tail_cons, List.dropLast_concat]
        have hpieces : (∃ first' rest' tail, first :: (parts ++ [last]) = first' :: rest' ∧
            value = first' ++ tail ∧ Filled rest' tail) ↔
              ∃ tail, value = first ++ tail ∧ Filled (parts ++ [last]) tail := by
          constructor
          · rintro ⟨first', rest', tail, hcons, hvalue, hfilled⟩
            rw [List.cons.injEq] at hcons
            rcases hcons with ⟨rfl, rfl⟩
            exact ⟨tail, hvalue, hfilled⟩
          · rintro ⟨tail, hvalue, hfilled⟩
            exact ⟨first, parts ++ [last], tail, rfl, hvalue, hfilled⟩
        rw [hpieces]
        simp only [if_neg hlength, hlast, hmiddle, List.headD_cons]
        by_cases hfirst : first <+: value
        · rcases hfirst with ⟨tail, rfl⟩
          have htail : (∃ tail', first ++ tail = first ++ tail' ∧
              Filled (parts ++ [last]) tail') ↔ Filled (parts ++ [last]) tail := by
            constructor
            · rintro ⟨tail', heq, hfilled⟩
              rw [List.append_cancel_left heq]
              exact hfilled
            · exact fun hfilled => ⟨tail, rfl, hfilled⟩
          rw [htail]
          by_cases hend : last <:+ first ++ tail
          · rw [if_neg (by simp [hend])]
            -- The parts between are searched from the left, each where it first fits.
            have hplaced := @placed_iff_filled _ (first ++ tail) last hend parts first.length
              (by rw [List.length_append]; omega)
            rw [List.drop_left] at hplaced
            rw [← hplaced, ← searchParts_iff_placed]
            cases searchParts (first ++ tail) ((first ++ tail).length - last.length)
                first.length parts with
            | none =>
                constructor
                · intro h
                  cases h
                · rintro ⟨reached, hreached, _⟩
                  cases hreached
            | some offset =>
                constructor
                · exact fun h => ⟨offset, rfl, of_decide_eq_true h⟩
                · rintro ⟨reached, hreached, hle⟩
                  cases hreached
                  exact decide_eq_true hle
          · -- What the pieces fill ends with the last of them.
            rw [if_pos (by simp [← Bool.not_eq_true, hend])]
            constructor
            · intro h
              cases h
            · intro hfilled
              exact absurd (hfilled.suffix.trans (List.suffix_append first tail)) hend
        · rw [if_pos (by simp [← Bool.not_eq_true, hfirst])]
          constructor
          · intro h
            cases h
          · rintro ⟨tail, hvalue, _⟩
            exact absurd ⟨tail, hvalue.symm⟩ hfirst

end CommandPermissions

end CopilotFleet
