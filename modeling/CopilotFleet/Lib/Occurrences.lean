import Mathlib.Algebra.GroupWithZero.Nat
import Mathlib.Data.List.Basic

/-!
# Counting Where a Word Occurs

How often a word occurs in a list, where what counts as the same is given by a
comparison of two elements, so that letters may be compared without regard to
case. The word is compared at every position.

A word cannot reach across something none of its elements is the same as. So a
text that is put together from parts, each followed by such a separator, has
the occurrences of its parts and no others (`occurrences_append_cons`), and a
text in which nothing is the same as the first element of the word has none
(`occurrences_eq_zero`).

## Main definitions

* `begins`: A list begins with a word.
* `occurrences`: How often a word occurs.

## Theorems

* `occurrences_append_cons`: Both sides of a separator are counted for themselves.
* `occurrences_skip`: What the word cannot begin with is skipped.
* `occurrences_eq_zero`: What has nothing like the first element has no occurrence.
-/

namespace CopilotFleet

namespace Occurrences

variable {α : Type*}

/-- The list begins with the word. -/
def begins (same : α → α → Bool) : List α → List α → Bool
  | [], _ => true
  | _ :: _, [] => false
  | c :: word, u :: text => same c u && begins same word text

/-- How often the word occurs, at any position. -/
def occurrences (same : α → α → Bool) (word : List α) : List α → Nat
  | [] => 0
  | u :: text => (begins same word (u :: text)).toNat + occurrences same word text

variable {same : α → α → Bool} {word : List α}

theorem begins_of_append {word' text : List α} (h : begins same (word ++ word') text = true) :
    begins same word text = true := by
  induction word generalizing text with
  | nil => rfl
  | cons c rest ih =>
      cases text with
      | nil => cases h
      | cons u text =>
          rw [List.cons_append, begins, Bool.and_eq_true] at h
          rw [begins, h.1, ih h.2]
          rfl

/-- What stands at the beginning is the same as the word. -/
theorem same_of_begins {text : List α} (h : begins same word text = true) :
    ∀ u ∈ text.take word.length, ∃ c ∈ word, same c u = true := by
  induction word generalizing text with
  | nil => exact fun _ hu => (nomatch hu)
  | cons c rest ih =>
      cases text with
      | nil => cases h
      | cons v text =>
          rw [begins, Bool.and_eq_true] at h
          intro u hu
          rw [List.length_cons, List.take_succ_cons] at hu
          rcases List.mem_cons.mp hu with rfl | hu
          · exact ⟨c, List.mem_cons_self, h.1⟩
          · rcases ih h.2 u hu with ⟨d, hd, hsame⟩
            exact ⟨d, List.mem_cons_of_mem c hd, hsame⟩

/-- A word does not reach across a separator. -/
theorem begins_append_cons {sep : α} (hsep : ∀ c ∈ word, same c sep = false) (a b : List α) :
    begins same word (a ++ sep :: b) = begins same word a := by
  induction word generalizing a with
  | nil => rfl
  | cons c rest ih =>
      cases a with
      | nil =>
          change (same c sep && begins same rest b) = false
          rw [hsep c List.mem_cons_self, Bool.false_and]
      | cons u a =>
          rw [List.cons_append, begins, begins, ih fun d hd => hsep d (List.mem_cons_of_mem c hd)]

/-- Both sides of a separator are counted for themselves. -/
theorem occurrences_append_cons {sep : α} (hne : word ≠ []) (hsep : ∀ c ∈ word, same c sep = false)
    (a b : List α) :
    occurrences same word (a ++ sep :: b) = occurrences same word a + occurrences same word b := by
  induction a with
  | nil =>
      have hno : begins same word (sep :: b) = false := by
        have h := begins_append_cons hsep [] b
        rw [List.nil_append] at h
        rw [h]
        cases word with
        | nil => exact absurd rfl hne
        | cons c rest => rfl
      change (begins same word (sep :: b)).toNat + occurrences same word b = _
      rw [hno]
      rfl
  | cons u a ih =>
      have hbegins := begins_append_cons hsep (u :: a) b
      rw [List.cons_append] at hbegins ⊢
      rw [occurrences, occurrences, hbegins, ih, Nat.add_assoc]

/-- What the word cannot begin with is skipped. -/
theorem occurrences_skip {c : α} {rest : List α} {run : List α}
    (hrun : ∀ u ∈ run, same c u = false) (text : List α) :
    occurrences same (c :: rest) (run ++ text) = occurrences same (c :: rest) text := by
  induction run with
  | nil => rfl
  | cons u run ih =>
      rw [List.cons_append, occurrences, begins, hrun u List.mem_cons_self, Bool.false_and,
        ih fun v hv => hrun v (List.mem_cons_of_mem u hv)]
      exact Nat.zero_add _

theorem occurrences_eq_zero {c : α} {rest text : List α} (h : ∀ u ∈ text, same c u = false) :
    occurrences same (c :: rest) text = 0 := by
  have hskip : occurrences same (c :: rest) (text ++ []) = occurrences same (c :: rest) [] :=
    occurrences_skip h []
  rwa [List.append_nil] at hskip

/-- Texts that are joined by a separator are counted one by one. -/
theorem occurrences_intercalate {sep : α} (hne : word ≠ []) (hsep : ∀ c ∈ word, same c sep = false)
    (texts : List (List α)) : occurrences same word ([sep].intercalate texts) =
      (texts.map (occurrences same word)).sum := by
  induction texts with
  | nil => rfl
  | cons text rest ih =>
      cases rest with
      | nil => simp
      | cons text' rest =>
          have hsplit : [sep].intercalate (text :: text' :: rest) =
              text ++ sep :: [sep].intercalate (text' :: rest) := by
            rw [List.intercalate_cons_cons, List.append_assoc]
            rfl
          rw [hsplit, occurrences_append_cons hne hsep, ih]
          rfl

end Occurrences

end CopilotFleet
