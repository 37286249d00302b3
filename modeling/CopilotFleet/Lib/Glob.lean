import Mathlib.Data.List.Basic

/-!
# Glob Patterns

A glob is a text in which one letter stands for any text at all. What it
matches is said by the pattern letter by letter (`Glob`); how it is matched in
practice is by the pieces between the stars. The first piece begins the text,
the last one ends it, and the others have to be found in between, in order and
without overlapping (`Placed`).

A search for them never has to go back. A piece that can be placed somewhere
can be placed at the first place it is found, because whatever could follow a
later place can follow an earlier one (`Placed.mono`).

## Main definitions

* `Glob`: A pattern matches a text.
* `Filled`: A text is pieces in order, with anything in front of each.
* `Placed`: Pieces have places in order from one position on, up to another.

## Theorems

* `glob_iff_pieces`: A glob is its first piece and then the others, filled in.
* `placed_iff_filled`: The same by places, up to where the last piece begins.
* `Placed.mono`: What has places from one position on has them from an earlier one on.
-/

namespace CopilotFleet

variable {α : Type*} {star : α}

/-- A pattern matches a text: each star stands for any text, each other letter for itself. -/
inductive Glob (star : α) : List α → List α → Prop where
  | nil : Glob star [] []
  | letter {c : α} {pattern text : List α} (hc : c ≠ star) (h : Glob star pattern text) :
      Glob star (c :: pattern) (c :: text)
  | star (gap : List α) {pattern text : List α} (h : Glob star pattern text) :
      Glob star (star :: pattern) (gap ++ text)

namespace Globs

/-- A text is the pieces in order, with anything in front of each of them. -/
def Filled : List (List α) → List α → Prop
  | [], text => text = []
  | piece :: rest, text => ∃ gap tail, text = gap ++ (piece ++ tail) ∧ Filled rest tail

/-- What pieces fill ends with the last of them. -/
theorem Filled.suffix {last : List α} {pieces : List (List α)} {text : List α}
    (h : Filled (pieces ++ [last]) text) : last <:+ text := by
  induction pieces generalizing text with
  | nil =>
      rcases h with ⟨gap, tail, rfl, hfilled⟩
      rw [show tail = [] from hfilled, List.append_nil]
      exact List.suffix_append gap last
  | cons piece rest ih =>
      rcases h with ⟨gap, tail, rfl, hfilled⟩
      refine (ih hfilled).trans ?_
      rw [← List.append_assoc]
      exact List.suffix_append (gap ++ piece) tail

/-- The pieces of a pattern tell what it matches. -/
theorem glob_iff_pieces [DecidableEq α] (pattern text : List α) :
    Glob star pattern text ↔ ∃ first rest tail,
      pattern.splitOn star = first :: rest ∧ text = first ++ tail ∧ Filled rest tail := by
  induction pattern generalizing text with
  | nil =>
      rw [List.splitOn_nil]
      constructor
      · intro h
        cases h
        exact ⟨[], [], [], rfl, rfl, rfl⟩
      · rintro ⟨first, rest, tail, hsplit, rfl, hfilled⟩
        rw [List.cons.injEq] at hsplit
        rcases hsplit with ⟨rfl, rfl⟩
        rw [show tail = [] from hfilled]
        exact .nil
  | cons c pattern ih =>
      -- A star opens an empty first piece; a letter lengthens the first piece of the rest.
      by_cases hc : c = star
      · have hsplit : (c :: pattern).splitOn star = [] :: pattern.splitOn star := by
          rw [List.splitOn_eq_splitOnP, List.splitOn_eq_splitOnP, List.splitOnP_cons_eq_if_modifyHead,
            if_pos (by simp [hc])]
        rw [hsplit]
        constructor
        · intro h
          cases h with
          | letter hne _ => exact absurd hc hne
          | star gap h =>
              rcases (ih _).mp h with ⟨first, rest, tail, hpieces, rfl, hfilled⟩
              exact ⟨[], first :: rest, _, by rw [hpieces], rfl, gap, tail, rfl, hfilled⟩
        · rintro ⟨first, rest, tail, hpieces, rfl, hfilled⟩
          rw [List.cons.injEq] at hpieces
          rcases hpieces with ⟨rfl, hpieces⟩
          cases rest with
          | nil =>
              rw [List.splitOn_eq_splitOnP] at hpieces
              exact absurd hpieces (List.splitOnP_ne_nil _ _)
          | cons first rest =>
              rcases hfilled with ⟨gap, tail, rfl, hfilled⟩
              rw [hc]
              exact .star gap ((ih _).mpr ⟨first, rest, tail, hpieces, rfl, hfilled⟩)
      · have hsplit : (c :: pattern).splitOn star = (pattern.splitOn star).modifyHead (c :: ·) := by
          rw [List.splitOn_eq_splitOnP, List.splitOn_eq_splitOnP, List.splitOnP_cons_eq_if_modifyHead,
            if_neg (by simp [hc])]
        rw [hsplit]
        constructor
        · intro h
          cases h with
          | star gap _ => exact absurd rfl hc
          | letter _ h =>
              rcases (ih _).mp h with ⟨first, rest, tail, hpieces, rfl, hfilled⟩
              exact ⟨c :: first, rest, tail, by rw [hpieces]; rfl, rfl, hfilled⟩
        · rintro ⟨first, rest, tail, hpieces, rfl, hfilled⟩
          cases hpattern : pattern.splitOn star with
          | nil =>
              rw [List.splitOn_eq_splitOnP] at hpattern
              exact absurd hpattern (List.splitOnP_ne_nil _ _)
          | cons first' rest' =>
              rw [hpattern, List.modifyHead_cons, List.cons.injEq] at hpieces
              rcases hpieces with ⟨rfl, rfl⟩
              exact .letter hc ((ih _).mpr ⟨first', rest', tail, hpattern, rfl, hfilled⟩)

/-- The pieces have places in the text, in order, from one position on up to another. -/
def Placed (text : List α) (finish : Nat) : Nat → List (List α) → Prop
  | offset, [] => offset ≤ finish
  | offset, piece :: rest => ∃ place, offset ≤ place ∧ piece <+: text.drop place ∧
      Placed text finish (place + piece.length) rest

theorem Placed.le {text : List α} {finish : Nat} :
    ∀ {pieces : List (List α)} {offset : Nat}, Placed text finish offset pieces →
      offset ≤ finish := by
  intro pieces
  induction pieces with
  | nil => exact fun h => h
  | cons piece rest ih =>
      rintro offset ⟨place, hplace, _, hrest⟩
      have hle := ih hrest
      omega

/-- What has places from one position on has them from an earlier one on. -/
theorem Placed.mono {text : List α} {finish offset earlier : Nat} (hle : earlier ≤ offset) :
    ∀ {pieces : List (List α)}, Placed text finish offset pieces →
      Placed text finish earlier pieces
  | [], h => Nat.le_trans hle h
  | _ :: _, ⟨place, hplace, hpiece, hrest⟩ => ⟨place, Nat.le_trans hle hplace, hpiece, hrest⟩

/-- Nothing has a place wherever the rest has. -/
theorem placed_nil_cons {text : List α} {finish offset : Nat} {rest : List (List α)} :
    Placed text finish offset ([] :: rest) ↔ Placed text finish offset rest := by
  constructor
  · rintro ⟨place, hplace, _, hrest⟩
    exact hrest.mono hplace
  · intro h
    exact ⟨offset, Nat.le_refl offset, List.nil_prefix, h⟩

/-- A piece that has a place has its first. -/
theorem placed_cons_of_first {text piece : List α} {finish offset first : Nat}
    {rest : List (List α)} (hle : offset ≤ first) (hfound : piece <+: text.drop first)
    (hfirst : ∀ place, offset ≤ place → piece <+: text.drop place → first ≤ place) :
    Placed text finish offset (piece :: rest) ↔
      Placed text finish (first + piece.length) rest := by
  constructor
  · rintro ⟨place, hplace, hpiece, hrest⟩
    exact hrest.mono (Nat.add_le_add_right (hfirst place hplace hpiece) _)
  · intro h
    exact ⟨first, hle, hfound, h⟩

/-- Places up to where the last piece begins are what fills the text before it. -/
theorem placed_iff_filled {text last : List α} (hlast : last <:+ text) :
    ∀ {pieces : List (List α)} {offset : Nat}, offset ≤ text.length →
      (Placed text (text.length - last.length) offset pieces ↔
        Filled (pieces ++ [last]) (text.drop offset)) := by
  have hlength := hlast.length_le
  have htail : text.drop (text.length - last.length) = last :=
    (List.suffix_iff_eq_drop.mp hlast).symm
  intro pieces
  induction pieces with
  | nil =>
      intro offset hoffset
      constructor
      · intro h
        have hle : offset ≤ text.length - last.length := h
        refine ⟨(text.drop offset).take (text.length - last.length - offset), [], ?_, rfl⟩
        rw [List.append_nil]
        conv => lhs; rw [← List.take_append_drop (text.length - last.length - offset)
          (text.drop offset)]
        rw [List.drop_drop, Nat.add_sub_cancel' hle, htail]
      · rintro ⟨gap, tail, htext, hfilled⟩
        have hsize := congrArg List.length htext
        rw [List.length_drop, List.length_append, List.length_append] at hsize
        change offset ≤ text.length - last.length
        omega
  | cons piece rest ih =>
      intro offset hoffset
      constructor
      · rintro ⟨place, hplace, ⟨tail, hpiece⟩, hrest⟩
        have hle := hrest.le
        -- Behind the piece lies the tail it was cut from.
        have hbehind : text.drop (place + piece.length) = tail := by
          rw [← List.drop_drop, ← hpiece, List.drop_left]
        have hfilled := (ih (by omega)).mp hrest
        rw [hbehind] at hfilled
        refine ⟨(text.drop offset).take (place - offset), tail, ?_, hfilled⟩
        conv => lhs; rw [← List.take_append_drop (place - offset) (text.drop offset)]
        rw [List.drop_drop, Nat.add_sub_cancel' hplace, hpiece]
      · rintro ⟨gap, tail, htext, hfilled⟩
        have hsize := congrArg List.length htext
        rw [List.length_drop, List.length_append, List.length_append] at hsize
        have hat : text.drop (offset + gap.length) = piece ++ tail := by
          rw [← List.drop_drop, htext, List.drop_left]
        have hbehind : text.drop (offset + gap.length + piece.length) = tail := by
          rw [← List.drop_drop, hat, List.drop_left]
        refine ⟨offset + gap.length, Nat.le_add_right _ _, ⟨tail, hat.symm⟩, ?_⟩
        refine (ih (by omega)).mpr ?_
        rw [hbehind]
        exact hfilled

end Globs

end CopilotFleet
