import Mathlib.Data.List.DropRight

/-!
# Splitting and Trimming

Texts are split at runs of separators and joined again by one of them. A
splitting keeps what stands before the first run and behind the last, empty or
not, so splitting and joining are inverse to each other only on texts that are
trimmed, and only the pieces of a trimmed text are all nonempty.

Separators are given by a predicate on the elements of any list.

## Main definitions

* `pieces`: What stands between the runs of separators.
* `trim`: A text without the separators at its ends.
* `Words`: Pieces that splitting gives back.
* `Trimmed`: Something that trimming leaves alone.

## Theorems

* `mem_pieces`: No piece has a separator in it.
* `words_of_trim`: The pieces of a trimmed text.
* `pieces_intercalate`: Splitting what was joined.
* `pieces_joined`: The same, where the joining text is longer than a separator.
* `Trimmed.intercalate`: What is joined from trimmed texts is trimmed.
* `trim_joined`: A text that is split, joined and trimmed is its words, joined.
-/

namespace CopilotFleet

namespace Split

variable {α : Type*}

/-- The text begins with a separator. -/
def startsWith (p : α → Bool) : List α → Bool
  | [] => false
  | u :: _ => p u

/-- What stands between the runs of separators, the ends included. -/
def pieces (p : α → Bool) : List α → List (List α)
  | [] => [[]]
  | u :: rest =>
      if p u then
        -- A run of separators counts once, at its last one.
        if startsWith p rest then pieces p rest else [] :: pieces p rest
      else (pieces p rest).modifyHead (u :: ·)

/-- The text without the separators at its ends. -/
def trim (p : α → Bool) (text : List α) : List α := (text.dropWhile p).rdropWhile p

/-- Pieces that splitting gives back: there are some, and each is a word. -/
structure Words (p : α → Bool) (ws : List (List α)) : Prop where
  some : ws ≠ []
  nonempty : ∀ w ∈ ws, w ≠ []
  plain : ∀ w ∈ ws, ∀ u ∈ w, p u = false

variable {p : α → Bool}

theorem pieces_ne_nil (text : List α) : pieces p text ≠ [] := by
  induction text with
  | nil => simp [pieces]
  | cons u rest ih =>
      unfold pieces
      split
      · split
        · exact ih
        · simp
      · cases h : pieces p rest with
        | nil => exact absurd h ih
        | cons w ws => simp

theorem pieces_sep {u : α} {rest : List α} (hu : p u = true) :
    pieces p (u :: rest) =
      if startsWith p rest then pieces p rest else [] :: pieces p rest := by
  rw [pieces, if_pos hu]

theorem pieces_plain {u : α} {rest : List α} (hu : p u = false) :
    pieces p (u :: rest) = (pieces p rest).modifyHead (u :: ·) := by
  rw [pieces, if_neg (by simp [hu])]

/-- What is without separators is one piece. -/
theorem pieces_of_plain {w : List α} (hw : ∀ u ∈ w, p u = false) : pieces p w = [w] := by
  induction w with
  | nil => rfl
  | cons u rest ih =>
      rw [pieces_plain (hw u List.mem_cons_self),
        ih fun v hv => hw v (List.mem_cons_of_mem u hv)]
      rfl

theorem startsWith_append {run rest : List α} (hrun : ∀ u ∈ run, p u = true) (hne : run ≠ []) :
    startsWith p (run ++ rest) = true := by
  cases run with
  | nil => exact absurd rfl hne
  | cons u run => exact hrun u List.mem_cons_self

/-- A run of separators in front leaves one empty piece. -/
theorem pieces_run {run rest : List α} (hrun : ∀ u ∈ run, p u = true) (hne : run ≠ [])
    (hrest : startsWith p rest = false) : pieces p (run ++ rest) = [] :: pieces p rest := by
  induction run with
  | nil => exact absurd rfl hne
  | cons u run ih =>
      have hu := hrun u List.mem_cons_self
      have hrun' : ∀ v ∈ run, p v = true := fun v hv => hrun v (List.mem_cons_of_mem u hv)
      rw [List.cons_append, pieces_sep hu]
      by_cases hempty : run = []
      · subst hempty
        rw [List.nil_append, if_neg (by simp [hrest])]
      · rw [if_pos (startsWith_append hrun' hempty), ih hrun' hempty]

/-- A piece, a run of separators, and what does not begin with one. -/
theorem pieces_append {w run rest : List α} (hw : ∀ u ∈ w, p u = false)
    (hrun : ∀ u ∈ run, p u = true) (hne : run ≠ []) (hrest : startsWith p rest = false) :
    pieces p (w ++ (run ++ rest)) = w :: pieces p rest := by
  induction w with
  | nil => exact pieces_run hrun hne hrest
  | cons u w ih =>
      rw [List.cons_append, pieces_plain (hw u List.mem_cons_self),
        ih fun v hv => hw v (List.mem_cons_of_mem u hv)]
      rfl

/-- No piece has a separator in it, and every piece is part of the text. -/
theorem mem_pieces {text w : List α} (hw : w ∈ pieces p text) :
    ∀ u ∈ w, p u = false ∧ u ∈ text := by
  induction text generalizing w with
  | nil =>
      intro u hu
      rw [pieces, List.mem_singleton] at hw
      rw [hw] at hu
      cases hu
  | cons v rest ih =>
      intro u hu
      by_cases hv : p v = true
      · rw [pieces_sep hv] at hw
        have hmem : w = [] ∨ w ∈ pieces p rest := by
          split at hw
          · exact .inr hw
          · exact List.mem_cons.mp hw
        rcases hmem with rfl | hmem
        · cases hu
        · exact ⟨(ih hmem u hu).1, List.mem_cons_of_mem v (ih hmem u hu).2⟩
      · rw [Bool.not_eq_true] at hv
        rw [pieces_plain hv] at hw
        cases hpieces : pieces p rest with
        | nil => exact absurd hpieces (pieces_ne_nil rest)
        | cons x xs =>
            rw [hpieces, List.modifyHead_cons] at hw
            have hx : ∀ y ∈ x, p y = false ∧ y ∈ rest :=
              ih (by rw [hpieces]; exact List.mem_cons_self)
            rcases List.mem_cons.mp hw with rfl | hw
            · rcases List.mem_cons.mp hu with rfl | hu
              · exact ⟨hv, List.mem_cons_self⟩
              · exact ⟨(hx u hu).1, List.mem_cons_of_mem v (hx u hu).2⟩
            · have hin := ih (by rw [hpieces]; exact List.mem_cons_of_mem x hw) u hu
              exact ⟨hin.1, List.mem_cons_of_mem v hin.2⟩

/-- Only the first piece can be empty of a text that does not end with a separator. -/
theorem pieces_tail_nonempty {text : List α}
    (hlast : ∀ h : text ≠ [], p (text.getLast h) = false) :
    ∀ w ∈ (pieces p text).tail, w ≠ [] := by
  induction text with
  | nil => simp [pieces]
  | cons u rest ih =>
      have hrest : ∀ h : rest ≠ [], p (rest.getLast h) = false := by
        intro h
        have hl := hlast (List.cons_ne_nil u rest)
        rwa [List.getLast_cons h] at hl
      by_cases hu : p u = true
      · rw [pieces_sep hu]
        split
        · exact ih hrest
        · rename_i hstart
          rw [List.tail_cons]
          -- The text goes on, and not with a separator.
          cases rest with
          | nil =>
              have hl := hlast (List.cons_ne_nil u [])
              rw [List.getLast_singleton, hu] at hl
              cases hl
          | cons v rest' =>
              have hv : p v = false := by simpa [startsWith] using hstart
              have htail := ih hrest
              rw [pieces_plain hv] at htail ⊢
              cases hpieces : pieces p rest' with
              | nil => exact absurd hpieces (pieces_ne_nil rest')
              | cons x xs =>
                  rw [List.modifyHead_cons]
                  rw [hpieces, List.modifyHead_cons] at htail
                  intro w hw
                  rcases List.mem_cons.mp hw with rfl | hw
                  · exact List.cons_ne_nil v x
                  · exact htail w hw
      · rw [Bool.not_eq_true] at hu
        rw [pieces_plain hu]
        cases hpieces : pieces p rest with
        | nil => exact absurd hpieces (pieces_ne_nil rest)
        | cons x xs =>
            have htail := ih hrest
            rw [hpieces] at htail
            exact htail

/-- A run of separators behind leaves one empty piece. -/
theorem pieces_back {text run : List α} (hlast : ∀ h : text ≠ [], p (text.getLast h) = false)
    (hrun : ∀ u ∈ run, p u = true) (hne : run ≠ []) :
    pieces p (text ++ run) = pieces p text ++ [[]] := by
  induction text with
  | nil =>
      rw [List.nil_append, ← List.append_nil run, pieces_run hrun hne rfl]
      rfl
  | cons u rest ih =>
      have hrest : ∀ h : rest ≠ [], p (rest.getLast h) = false := by
        intro h
        have hl := hlast (List.cons_ne_nil u rest)
        rwa [List.getLast_cons h] at hl
      by_cases hu : p u = true
      · cases rest with
        | nil =>
            have hl := hlast (List.cons_ne_nil u [])
            rw [List.getLast_singleton, hu] at hl
            cases hl
        | cons v rest =>
            rw [List.cons_append, pieces_sep hu, pieces_sep hu, ih hrest]
            have hstart : startsWith p (v :: rest ++ run) = startsWith p (v :: rest) := rfl
            rw [hstart]
            split <;> rfl
      · rw [Bool.not_eq_true] at hu
        rw [List.cons_append, pieces_plain hu, pieces_plain hu, ih hrest]
        cases hpieces : pieces p rest with
        | nil => exact absurd hpieces (pieces_ne_nil rest)
        | cons w ws => rfl

/-! ### Trimmed texts -/

theorem trim_eq_self {text : List α} (hfirst : startsWith p text = false)
    (hlast : ∀ h : text ≠ [], p (text.getLast h) = false) : trim p text = text := by
  have hdrop : text.dropWhile p = text := by
    cases text with
    | nil => rfl
    | cons u rest =>
        rw [List.dropWhile_cons, if_neg]
        simpa [startsWith] using hfirst
  unfold trim
  rw [hdrop, List.rdropWhile_eq_self_iff]
  intro h
  simpa using hlast h

/-- Separators in front do not matter. -/
theorem trim_append {run text : List α} (hrun : ∀ u ∈ run, p u = true) :
    trim p (run ++ text) = trim p text := by
  unfold trim
  rw [List.dropWhile_append_of_pos hrun]

theorem trim_last (text : List α) (h : trim p text ≠ []) :
    p ((trim p text).getLast h) = false := by
  have hlast := List.rdropWhile_last_not p (text.dropWhile p) h
  exact Bool.eq_false_iff.mpr hlast

theorem startsWith_trim (text : List α) : startsWith p (trim p text) = false := by
  unfold trim
  have hpre := List.rdropWhile_prefix p (text.dropWhile p)
  cases htrim : (text.dropWhile p).rdropWhile p with
  | nil => rfl
  | cons u rest =>
      rw [htrim] at hpre
      rcases hpre with ⟨tail, htail⟩
      have hne : text.dropWhile p ≠ [] := by
        rw [← htail]
        exact List.cons_ne_nil u _
      have hhead := List.head_dropWhile_not p hne
      simp only [← htail] at hhead
      exact hhead

theorem mem_of_mem_trim {text : List α} {u : α} (hu : u ∈ trim p text) : u ∈ text := by
  have h := (List.rdropWhile_prefix p (text.dropWhile p)).subset hu
  exact (List.dropWhile_sublist p).subset h

/-- The pieces of a trimmed text are words, unless nothing is left of it. -/
theorem words_of_trim {text : List α} (hne : trim p text ≠ []) :
    Words p (pieces p (trim p text)) where
  some := pieces_ne_nil _
  nonempty := by
    have htail : ∀ w ∈ (pieces p (trim p text)).tail, w ≠ [] :=
      pieces_tail_nonempty fun h => trim_last text h
    have hstart := startsWith_trim (p := p) text
    cases htrim : trim p text with
    | nil => exact absurd htrim hne
    | cons u rest =>
        rw [htrim] at htail hstart
        have hu : p u = false := hstart
        rw [pieces_plain hu] at htail ⊢
        cases hpieces : pieces p rest with
        | nil => exact absurd hpieces (pieces_ne_nil rest)
        | cons x xs =>
            rw [hpieces, List.modifyHead_cons] at htail
            rw [List.modifyHead_cons]
            intro w hw
            rcases List.mem_cons.mp hw with rfl | hw
            · exact List.cons_ne_nil u x
            · exact htail w hw
  plain := fun w hw u hu => (mem_pieces hw u hu).1

/-- Around one word there is nothing but separators on one side of any separator. -/
theorem around_separator {run w run' before rest : List α} {c : α}
    (hrun : ∀ u ∈ run, p u = true) (hw : ∀ u ∈ w, p u = false) (hrun' : ∀ u ∈ run', p u = true)
    (hc : p c = true) (h : run ++ (w ++ run') = before ++ c :: rest) :
    (∀ u ∈ before, p u = true) ∨ ∀ u ∈ rest, p u = true := by
  rcases List.append_eq_append_iff.mp h with ⟨x, hbefore, hrest⟩ | ⟨x, hbefore, hrest⟩
  · -- The separator stands behind the first run.
    rcases List.append_eq_append_iff.mp hrest with ⟨y, hx, hy⟩ | ⟨y, hx, hy⟩
    · right
      intro u hu
      exact hrun' u (by rw [hy]; exact List.mem_append_right y (List.mem_cons_of_mem c hu))
    · right
      cases y with
      | nil =>
          intro u hu
          refine hrun' u ?_
          rw [List.nil_append] at hy
          rw [← hy]
          exact List.mem_cons_of_mem c hu
      | cons v y =>
          -- It would be an element of the word.
          have hv : v = c := (List.cons.inj hy).1.symm
          have hword := hw v (by rw [hx]; exact List.mem_append_right x List.mem_cons_self)
          rw [hv, hc] at hword
          cases hword
  · left
    intro u hu
    exact hrun u (by rw [hbefore]; exact List.mem_append_left x hu)

/-! ### Joined texts -/

/-- Something, without a separator at either end. -/
structure Trimmed (p : α → Bool) (w : List α) : Prop where
  nonempty : w ≠ []
  first : startsWith p w = false
  last : ∀ h : w ≠ [], p (w.getLast h) = false

theorem Trimmed.trim {w : List α} (h : Trimmed p w) : trim p w = w :=
  trim_eq_self h.first h.last

theorem Words.trimmed {ws : List (List α)} (h : Words p ws) {w : List α} (hw : w ∈ ws) :
    Trimmed p w where
  nonempty := h.nonempty w hw
  first := by
    have hplain := h.plain w hw
    cases w with
    | nil => rfl
    | cons u rest => exact hplain u List.mem_cons_self
  last := fun hne => h.plain w hw _ (List.getLast_mem hne)

/-- What is joined from trimmed texts is trimmed. -/
theorem Trimmed.intercalate {sep : List α} {ws : List (List α)} (hne : ws ≠ [])
    (h : ∀ w ∈ ws, Trimmed p w) : Trimmed p (sep.intercalate ws) := by
  induction ws with
  | nil => exact absurd rfl hne
  | cons w rest ih =>
      have hw := h w List.mem_cons_self
      cases rest with
      | nil =>
          rw [List.intercalate_singleton]
          exact hw
      | cons w' rest =>
          have hrest := ih (List.cons_ne_nil w' rest) fun v hv => h v (List.mem_cons_of_mem w hv)
          rw [List.intercalate_cons_cons]
          refine ⟨?_, ?_, fun hne' => ?_⟩
          · simp [hw.nonempty]
          · have hfirst := hw.first
            cases w with
            | nil => exact absurd rfl hw.nonempty
            | cons u w => exact hfirst
          · rw [List.getLast_append_of_ne_nil hne' hrest.nonempty]
            exact hrest.last hrest.nonempty

theorem Words.intercalate {sep : List α} {ws : List (List α)} (h : Words p ws) :
    Trimmed p (sep.intercalate ws) :=
  Trimmed.intercalate h.some fun _ hw => h.trimmed hw

theorem mem_intercalate {sep : List α} {ws : List (List α)} {u : α}
    (hu : u ∈ sep.intercalate ws) : u ∈ sep ∨ ∃ w ∈ ws, u ∈ w := by
  induction ws with
  | nil => cases hu
  | cons w rest ih =>
      cases rest with
      | nil =>
          rw [List.intercalate_singleton] at hu
          exact .inr ⟨w, List.mem_cons_self, hu⟩
      | cons w' rest =>
          rw [List.intercalate_cons_cons, List.mem_append, List.mem_append] at hu
          rcases hu with (hu | hu) | hu
          · exact .inr ⟨w, List.mem_cons_self, hu⟩
          · exact .inl hu
          · rcases ih hu with hsep | ⟨v, hv, huv⟩
            · exact .inl hsep
            · exact .inr ⟨v, List.mem_cons_of_mem w hv, huv⟩

theorem Words.tail {w w' : List α} {rest : List (List α)} (h : Words p (w :: w' :: rest)) :
    Words p (w' :: rest) where
  some := List.cons_ne_nil _ _
  nonempty := fun v hv => h.nonempty v (List.mem_cons_of_mem w hv)
  plain := fun v hv => h.plain v (List.mem_cons_of_mem w hv)

/-- Splitting what was joined by separators. -/
theorem pieces_intercalate {sep : List α} (hsep : ∀ u ∈ sep, p u = true) (hne : sep ≠ []) :
    ∀ {ws : List (List α)}, Words p ws → pieces p (sep.intercalate ws) = ws := by
  intro ws
  induction ws with
  | nil =>
      intro hws
      exact absurd rfl hws.some
  | cons w rest ih =>
      intro hws
      have hw := hws.plain w List.mem_cons_self
      cases rest with
      | nil => rw [List.intercalate_singleton, pieces_of_plain hw]
      | cons w' rest =>
          rw [List.intercalate_cons_cons, List.append_assoc,
            pieces_append hw hsep hne hws.tail.intercalate.first, ih hws.tail]

/-- Splitting what was joined by a separator and something more, which then stands
    in front of every piece but the first. -/
theorem pieces_joined {c : α} {gap : List α} (hc : p c = true) (hgap : ∀ u ∈ gap, p u = false)
    (hne : gap ≠ []) : ∀ {rest : List (List α)} {w : List α}, (∀ u ∈ w, p u = false) →
      (∀ v ∈ rest, ∀ u ∈ v, p u = false) →
      pieces p ((c :: gap).intercalate (w :: rest)) = w :: rest.map (gap ++ ·) := by
  have hstart : ∀ text, startsWith p (gap ++ text) = false := by
    intro text
    cases gap with
    | nil => exact absurd rfl hne
    | cons u gap => exact hgap u List.mem_cons_self
  have hshift : ∀ (v : List α) (rest : List (List α)),
      gap ++ (c :: gap).intercalate (v :: rest) = (c :: gap).intercalate ((gap ++ v) :: rest) := by
    intro v rest
    cases rest with
    | nil => rw [List.intercalate_singleton, List.intercalate_singleton]
    | cons v' rest =>
        rw [List.intercalate_cons_cons, List.intercalate_cons_cons]
        simp only [List.append_assoc]
  intro rest
  induction rest with
  | nil =>
      intro w hw _
      rw [List.intercalate_singleton, pieces_of_plain hw]
      rfl
  | cons v rest ih =>
      intro w hw hrest
      have hv : ∀ u ∈ gap ++ v, p u = false := by
        intro u hu
        rcases List.mem_append.mp hu with hu | hu
        · exact hgap u hu
        · exact hrest v List.mem_cons_self u hu
      have hsplit : (c :: gap).intercalate (w :: v :: rest) =
          w ++ ([c] ++ (gap ++ (c :: gap).intercalate (v :: rest))) := by
        rw [List.intercalate_cons_cons, List.append_assoc]
        rfl
      have hc' : ∀ u ∈ [c], p u = true := by
        intro u hu
        rw [List.mem_singleton.mp hu]
        exact hc
      rw [hsplit, pieces_append hw hc' (List.cons_ne_nil c []) (hstart _), hshift,
        ih hv fun x hx => hrest x (List.mem_cons_of_mem v hx)]
      rfl

/-- One empty piece more at the end. -/
theorem intercalate_back {sep : List α} : ∀ {ws : List (List α)}, ws ≠ [] →
    sep.intercalate (ws ++ [[]]) = sep.intercalate ws ++ sep := by
  intro ws
  induction ws with
  | nil => exact fun h => absurd rfl h
  | cons w rest ih =>
      intro _
      cases rest with
      | nil => simp [List.intercalate]
      | cons w' rest =>
          rw [List.cons_append, List.intercalate_cons_of_ne_nil (by simp),
            ih (List.cons_ne_nil w' rest), List.intercalate_cons_cons]
          simp only [List.append_assoc]

/-- Separators behind a trimmed text do not matter. -/
theorem Trimmed.trim_back {w : List α} (h : Trimmed p w) {u : α} (hu : p u = true) :
    Split.trim p (w ++ [u]) = w := by
  unfold Split.trim
  have hdrop : (w ++ [u]).dropWhile p = w ++ [u] := by
    have hfirst := h.first
    cases w with
    | nil => exact absurd rfl h.nonempty
    | cons v w => exact List.dropWhile_cons_of_neg (by simpa [startsWith] using hfirst)
  rw [hdrop, List.rdropWhile_concat_pos _ _ _ hu, List.rdropWhile_eq_self_iff]
  intro hne
  simpa using h.last hne

/-- What is joined again by one separator, without the separators at the ends. -/
theorem trim_joined [DecidableEq α] {s : α} (hs : p s = true) (text : List α) :
    trim (fun u => u = s) ([s].intercalate (pieces p text)) =
      [s].intercalate ((pieces p text).filter fun w => !w.isEmpty) := by
  -- A run, what is left of the text, and a run.
  obtain ⟨front, back, htext, hfront, hback⟩ : ∃ front back,
      text = front ++ (trim p text ++ back) ∧ (∀ u ∈ front, p u = true) ∧
        ∀ u ∈ back, p u = true := by
    refine ⟨text.takeWhile p, (text.dropWhile p).rtakeWhile p, ?_, fun u => List.mem_takeWhile_imp,
      fun u hu => ?_⟩
    · unfold trim
      rw [List.rdropWhile_append_rtakeWhile, List.takeWhile_append_dropWhile]
    · exact List.mem_rtakeWhile_imp hu
  have hcore : ∀ h : trim p text ≠ [], p ((trim p text).getLast h) = false := trim_last text
  by_cases hne : trim p text = []
  · -- There is nothing but separators.
    rw [hne, List.nil_append] at htext
    have hall : ∀ u ∈ text, p u = true := by
      intro u hu
      rw [htext] at hu
      exact (List.mem_append.mp hu).elim (hfront u) (hback u)
    cases text with
    | nil => simp [pieces, trim]
    | cons u rest =>
        rw [← List.append_nil (u :: rest), pieces_run hall (List.cons_ne_nil u rest) rfl]
        simp [pieces, trim, List.intercalate]
  · have hwords := words_of_trim hne
    have hfirst := startsWith_trim (p := p) text
    generalize trim p text = core at htext hcore hne hwords hfirst
    have hlast : pieces p (core ++ back) =
        pieces p core ++ if back = [] then [] else [[]] := by
      by_cases hnil : back = []
      · rw [if_pos hnil, hnil, List.append_nil, List.append_nil]
      · rw [if_neg hnil, pieces_back hcore hback hnil]
    have hstart : startsWith p (core ++ back) = false := by
      cases core with
      | nil => exact absurd rfl hne
      | cons u core => exact hfirst
    have hpieces : pieces p text = (if front = [] then [] else [[]]) ++
        (pieces p core ++ if back = [] then [] else [[]]) := by
      rw [htext]
      by_cases hnil : front = []
      · rw [if_pos hnil, hnil, List.nil_append, List.nil_append, hlast]
      · rw [if_neg hnil, pieces_run hfront hnil hstart, hlast]
        rfl
    have hkept : (pieces p core).filter (fun w => !w.isEmpty) = pieces p core :=
      List.filter_eq_self.mpr fun w hw => by simpa using hwords.nonempty w hw
    have hjoined : Trimmed (fun u => decide (u = s)) ([s].intercalate (pieces p core)) := by
      refine Words.intercalate ⟨hwords.some, hwords.nonempty, fun w hw u hu => ?_⟩
      rw [decide_eq_false_iff_not]
      rintro rfl
      rw [hwords.plain w hw u hu] at hs
      cases hs
    have hempty : ∀ run : List α, (if run = [] then [] else [([] : List α)]).filter
        (fun w => !w.isEmpty) = [] := by
      intro run
      split <;> rfl
    rw [hpieces, List.filter_append, List.filter_append, hkept, hempty, hempty, List.nil_append,
      List.append_nil]
    have hbehind : Split.trim (fun u => decide (u = s))
        ([s].intercalate (pieces p core ++ if back = [] then [] else [[]])) =
          [s].intercalate (pieces p core) := by
      split
      · rw [List.append_nil, hjoined.trim]
      · rw [intercalate_back hwords.some, hjoined.trim_back (decide_eq_true rfl)]
    split
    · exact hbehind
    · rw [List.singleton_append, List.intercalate_cons_of_ne_nil (by simp [hwords.some]),
        List.nil_append, trim_append (by simp), hbehind]

end Split

end CopilotFleet
