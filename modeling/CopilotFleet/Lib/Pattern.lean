import Mathlib.Logic.Relation

/-!
# Patterns that Backtrack

Regular expressions as the language standard defines them: a pattern is run at
a point of the text with a continuation, and answers with what the first
alternative leads to from which the continuation succeeds. Which alternative is
first is what distinguishes a greedy repetition from a lazy one, and so decides
what is captured.

Two kinds of facts are wanted. That a pattern matches, and with which captures,
is shown by following its first alternatives (`run_greedy`, `run_lazy`). That
it does not match is shown from what it could have consumed at all
(`run_steps`), which says nothing about the order.

## Main definitions

* `Pattern`: The patterns.
* `Pattern.run`: Running a pattern at a point.
* `Pattern.exec`: The captures of a match from the start of a text.
* `Pattern.Steps`: What a pattern can consume.

## Theorems

* `run_greedy`: A greedy repetition takes all there is.
* `run_lazy`: A lazy one takes the least from which the rest matches.
* `run_steps`: What a match consumed.
-/

namespace CopilotFleet

universe u

inductive Pattern (α : Type u) where
  /-- One element of a class. -/
  | one (p : α → Bool)
  | lit (text : List α)
  | seq (a b : Pattern α)
  | alt (a b : Pattern α)
  | star (greedy : Bool) (a : Pattern α)
  | maybe (a : Pattern α)
  | group (n : Nat) (a : Pattern α)
  /-- The end of the text. -/
  | finish

namespace Pattern

variable {α : Type u}

/-- Where a match has come to, with what it has captured, the newest first. -/
structure Point (α : Type u) where
  rest : List α
  captures : List (Nat × List α) := []

abbrev Captures (α : Type u) := List (Nat × List α)

abbrev Continuation (α : Type u) := Point α → Option (Captures α)

/-- A repetition that goes on at most so often, and only while it consumes. -/
def iterate (greedy : Bool) (m : Point α → Continuation α → Option (Captures α)) :
    Nat → Point α → Continuation α → Option (Captures α)
  | 0, x, c => c x
  | n + 1, x, c =>
      let again := m x fun y =>
        if y.rest.length < x.rest.length then iterate greedy m n y c else none
      if greedy then again.or (c x) else (c x).or again

theorem iterate_succ (greedy : Bool) (m : Point α → Continuation α → Option (Captures α)) (n : Nat)
    (x : Point α) (c : Continuation α) :
    iterate greedy m (n + 1) x c =
      let again := m x fun y =>
        if y.rest.length < x.rest.length then iterate greedy m n y c else none
      if greedy then again.or (c x) else (c x).or again := rfl

section

variable [DecidableEq α]

def run : Pattern α → Point α → Continuation α → Option (Captures α)
  | one p, x, c =>
      match x.rest with
      | [] => none
      | v :: rest => if p v then c { x with rest } else none
  | lit text, x, c =>
      if text.isPrefixOf x.rest then c { x with rest := x.rest.drop text.length } else none
  | seq a b, x, c => run a x fun y => run b y c
  | alt a b, x, c => (run a x c).or (run b x c)
  | star greedy a, x, c => iterate greedy (run a) x.rest.length x c
  | maybe a, x, c => (run a x c).or (c x)
  | group n a, x, c =>
      run a x fun y =>
        c { y with captures := (n, x.rest.take (x.rest.length - y.rest.length)) :: y.captures }
  | finish, x, c => if x.rest = [] then c x else none

theorem run_one (p : α → Bool) (x : Point α) (c : Continuation α) :
    run (one p) x c = match x.rest with
      | [] => none
      | v :: rest => if p v then c { x with rest } else none := rfl

theorem run_text (text : List α) (x : Point α) (c : Continuation α) :
    run (lit text) x c =
      if text.isPrefixOf x.rest then c { x with rest := x.rest.drop text.length } else none := rfl

theorem run_seq (a b : Pattern α) (x : Point α) (c : Continuation α) :
    run (seq a b) x c = run a x fun y => run b y c := rfl

theorem run_maybe (a : Pattern α) (x : Point α) (c : Continuation α) :
    run (maybe a) x c = (run a x c).or (c x) := rfl

theorem run_group (n : Nat) (a : Pattern α) (x : Point α) (c : Continuation α) :
    run (group n a) x c = run a x fun y =>
      c { y with captures := (n, x.rest.take (x.rest.length - y.rest.length)) :: y.captures } := rfl

theorem run_finish (x : Point α) (c : Continuation α) :
    run finish x c = if x.rest = [] then c x else none := rfl

/-- The captures of a match from the start of a text. -/
def exec (a : Pattern α) (text : List α) : Option (Captures α) :=
  run a { rest := text } fun y => some y.captures

end

/-- One pattern after the other. -/
def all : List (Pattern α) → Pattern α
  | [] => lit []
  | [a] => a
  | a :: rest => seq a (all rest)

/-- At least one. -/
def plus (greedy : Bool) (a : Pattern α) : Pattern α := seq a (star greedy a)

/-! ### What a pattern can consume -/

/-- The points a pattern can lead to, in no order. -/
def Steps : Pattern α → Point α → Point α → Prop
  | one p, x, y => ∃ v, x.rest = v :: y.rest ∧ p v = true ∧ y.captures = x.captures
  | lit text, x, y => x.rest = text ++ y.rest ∧ y.captures = x.captures
  | seq a b, x, y => ∃ z, Steps a x z ∧ Steps b z y
  | alt a b, x, y => Steps a x y ∨ Steps b x y
  | star _ a, x, y => Relation.ReflTransGen (Steps a) x y
  | maybe a, x, y => Steps a x y ∨ x = y
  | group n a, x, y =>
      ∃ z, Steps a x z ∧
        y = { z with captures := (n, x.rest.take (x.rest.length - z.rest.length)) :: z.captures }
  | finish, x, y => x.rest = [] ∧ x = y

theorem steps_star_one {greedy : Bool} {p : α → Bool} {x y : Point α}
    (h : Steps (star greedy (one p)) x y) :
    ∃ w, x.rest = w ++ y.rest ∧ (∀ v ∈ w, p v = true) ∧ y.captures = x.captures := by
  change Relation.ReflTransGen _ x y at h
  induction h using Relation.ReflTransGen.head_induction_on with
  | refl => exact ⟨[], rfl, by simp, rfl⟩
  | head hstep _ ih =>
      rcases hstep with ⟨v, hrest, hv, hcaptures⟩
      rcases ih with ⟨w, hrest', hw, hcaptures'⟩
      refine ⟨v :: w, by rw [hrest, hrest', List.cons_append], ?_, hcaptures'.trans hcaptures⟩
      intro v' hv'
      rcases List.mem_cons.mp hv' with rfl | hv'
      · exact hv
      · exact hw v' hv'

theorem steps_plus_one {greedy : Bool} {p : α → Bool} {x y : Point α}
    (h : Steps (plus greedy (one p)) x y) :
    ∃ w, x.rest = w ++ y.rest ∧ w ≠ [] ∧ (∀ v ∈ w, p v = true) ∧ y.captures = x.captures := by
  rcases h with ⟨z, ⟨v, hrest, hv, hcaptures⟩, hstar⟩
  rcases steps_star_one hstar with ⟨w, hrest', hw, hcaptures'⟩
  refine ⟨v :: w, by rw [hrest, hrest', List.cons_append], List.cons_ne_nil v w, ?_,
    hcaptures'.trans hcaptures⟩
  intro v' hv'
  rcases List.mem_cons.mp hv' with rfl | hv'
  · exact hv
  · exact hw v' hv'

/-- What a group captures is what its pattern consumed. -/
theorem steps_group {a : Pattern α} {n : Nat} {x y : Point α} (h : Steps (group n a) x y) :
    ∃ z, Steps a x z ∧ y.rest = z.rest ∧
      ∀ w, x.rest = w ++ z.rest → y.captures = (n, w) :: z.captures := by
  rcases h with ⟨z, hz, rfl⟩
  refine ⟨z, hz, rfl, ?_⟩
  intro w hw
  have hlength : x.rest.length - z.rest.length = w.length := by
    rw [hw, List.length_append]
    omega
  rw [hlength, hw, List.take_left]

variable [DecidableEq α] {c : Continuation α} {r : Captures α}

theorem iterate_steps {greedy : Bool} {a : Pattern α}
    (ha : ∀ (x : Point α) (c : Continuation α), run a x c = some r →
      ∃ y, Steps a x y ∧ c y = some r) :
    ∀ (n : Nat) (x : Point α), iterate greedy (run a) n x c = some r →
      ∃ y, Relation.ReflTransGen (Steps a) x y ∧ c y = some r := by
  intro n
  induction n with
  | zero =>
      intro x h
      exact ⟨x, Relation.ReflTransGen.refl, h⟩
  | succ n ih =>
      intro x h
      have hagain : (run a x fun y =>
            if y.rest.length < x.rest.length then iterate greedy (run a) n y c else none) = some r →
          ∃ y, Relation.ReflTransGen (Steps a) x y ∧ c y = some r := by
        intro hrun
        rcases ha x _ hrun with ⟨y, hxy, hy⟩
        split at hy
        · rcases ih y hy with ⟨z, hyz, hz⟩
          exact ⟨z, Relation.ReflTransGen.head hxy hyz, hz⟩
        · cases hy
      have hstop : c x = some r →
          ∃ y, Relation.ReflTransGen (Steps a) x y ∧ c y = some r :=
        fun hx => ⟨x, Relation.ReflTransGen.refl, hx⟩
      rw [iterate_succ] at h
      simp only at h
      split at h
      · rcases Option.or_eq_some_iff.mp h with h | ⟨_, h⟩
        · exact hagain h
        · exact hstop h
      · rcases Option.or_eq_some_iff.mp h with h | ⟨_, h⟩
        · exact hstop h
        · exact hagain h

/-- What a match consumed, up to where the continuation succeeded. -/
theorem run_steps (a : Pattern α) : ∀ (x : Point α) (c : Continuation α), run a x c = some r →
    ∃ y, Steps a x y ∧ c y = some r := by
  induction a with
  | one p =>
      intro x c h
      rw [run_one] at h
      split at h
      · cases h
      · rename_i v rest hrest
        split at h
        · rename_i hv
          exact ⟨{ x with rest }, ⟨v, hrest, hv, rfl⟩, h⟩
        · cases h
  | lit text =>
      intro x c h
      rw [run_text] at h
      split at h
      · rename_i hprefix
        rcases List.isPrefixOf_iff_prefix.mp hprefix with ⟨t, ht⟩
        refine ⟨{ x with rest := x.rest.drop text.length }, ⟨?_, rfl⟩, h⟩
        change x.rest = text ++ x.rest.drop text.length
        rw [← ht, List.drop_left]
      · cases h
  | seq a b iha ihb =>
      intro x c h
      rcases iha x _ h with ⟨y, hxy, hy⟩
      rcases ihb y c hy with ⟨z, hyz, hz⟩
      exact ⟨z, ⟨y, hxy, hyz⟩, hz⟩
  | alt a b iha ihb =>
      intro x c h
      rcases Option.or_eq_some_iff.mp h with h | ⟨_, h⟩
      · rcases iha x c h with ⟨y, hxy, hy⟩
        exact ⟨y, .inl hxy, hy⟩
      · rcases ihb x c h with ⟨y, hxy, hy⟩
        exact ⟨y, .inr hxy, hy⟩
  | star greedy a iha =>
      intro x c h
      -- Every round of the star is a step of its body.
      exact iterate_steps iha _ x h
  | maybe a iha =>
      intro x c h
      rcases Option.or_eq_some_iff.mp h with h | ⟨_, h⟩
      · rcases iha x c h with ⟨y, hxy, hy⟩
        exact ⟨y, .inl hxy, hy⟩
      · exact ⟨x, .inr rfl, h⟩
  | group n a iha =>
      intro x c h
      rcases iha x _ h with ⟨y, hxy, hy⟩
      exact ⟨_, ⟨y, hxy, rfl⟩, hy⟩
  | finish =>
      intro x c h
      rw [run_finish] at h
      split at h
      · rename_i hrest
        exact ⟨x, ⟨hrest, rfl⟩, h⟩
      · cases h

/-- A pattern that can lead nowhere the continuation accepts does not match. -/
theorem run_eq_none {a : Pattern α} {x : Point α}
    (h : ∀ y : Point α, Steps a x y → c y = none) : run a x c = none := by
  rw [Option.eq_none_iff_forall_ne_some]
  intro r hr
  rcases run_steps a x c hr with ⟨y, hxy, hy⟩
  rw [h y hxy] at hy
  cases hy

/-- A match from the start leads to some point, with the captures made there. -/
theorem exec_steps {a : Pattern α} {text : List α} (h : exec a text = some r) :
    ∃ y, Steps a { rest := text } y ∧ y.captures = r := by
  rcases run_steps a _ _ h with ⟨y, hxy, hy⟩
  exact ⟨y, hxy, Option.some.inj hy⟩

/-! ### Following the first alternatives -/

theorem run_lit (text rest : List α) (captures : Captures α) :
    run (lit text) { rest := text ++ rest, captures } c = c { rest, captures } := by
  rw [run_text, if_pos (List.isPrefixOf_iff_prefix.mpr (List.prefix_append text rest)), List.drop_left]

/-- A literal that stands there. -/
theorem lit_some {text rest : List α} {captures : Captures α}
    (hc : c { rest, captures } = some r) :
    run (lit text) { rest := text ++ rest, captures } c = some r := by
  rw [run_lit, hc]

/-- A literal that does not stand there. -/
theorem lit_none {text : List α} {x : Point α} (h : text.isPrefixOf x.rest = false) :
    run (lit text) x c = none := by
  rw [run_text, if_neg (by simp [h])]

/-- What a group encloses is captured. -/
theorem group_some {a : Pattern α} {n : Nat} {w rest : List α} {captures : Captures α}
    (h : ∀ c : Continuation α, c { rest, captures } = some r →
      run a { rest := w ++ rest, captures } c = some r)
    (hc : c { rest, captures := (n, w) :: captures } = some r) :
    run (group n a) { rest := w ++ rest, captures } c = some r := by
  refine h _ ?_
  have hlength : (w ++ rest).length - rest.length = w.length := by
    rw [List.length_append]
    omega
  simp only [hlength, List.take_left]
  exact hc

/-- What may stand there does. -/
theorem maybe_some {a : Pattern α} {x : Point α} (h : run a x c = some r) :
    run (maybe a) x c = some r := by
  rw [run_maybe, h, Option.some_or]

/-- What may stand there does not. -/
theorem maybe_none {a : Pattern α} {x : Point α} (h : ∀ y, ¬Steps a x y) (hc : c x = some r) :
    run (maybe a) x c = some r := by
  rw [run_maybe, run_eq_none fun y hy => absurd hy (h y), Option.none_or, hc]

/-- Whatever comes next, the pattern takes `w` and nothing else. -/
def Eats (a : Pattern α) (w : List α) : Prop :=
  ∀ rest captures c, run a { rest := w ++ rest, captures } c = c { rest, captures }

theorem eats_one {p : α → Bool} {v : α} (hv : p v = true) : Eats (one p) [v] := by
  intro rest captures c
  simp [run_one, hv]

/-- A greedy repetition takes all that its pattern eats, one after the other. -/
theorem run_greedy {a : Pattern α} {ws : List (List α)} {rest : List α} {captures : Captures α}
    (hws : ∀ w ∈ ws, w ≠ [] ∧ Eats a w)
    (hstop : ∀ c : Continuation α, run a { rest, captures } c = none)
    (hc : c { rest, captures } = some r) :
    run (star true a) { rest := ws.flatten ++ rest, captures } c = some r := by
  have hiterate : ∀ (ws : List (List α)) (n : Nat), (∀ w ∈ ws, w ≠ [] ∧ Eats a w) →
      ws.flatten.length ≤ n →
      iterate true (run a) n { rest := ws.flatten ++ rest, captures } c = some r := by
    intro ws
    induction ws with
    | nil =>
        intro n _ _
        cases n with
        | zero => exact hc
        | succ n =>
            rw [iterate_succ]
            simp only [List.flatten_nil, List.nil_append, hstop, if_true, Option.none_or]
            exact hc
    | cons w ws ih =>
        intro n hws hn
        have hw := hws w List.mem_cons_self
        have hpos : 0 < w.length := List.length_pos_iff.mpr hw.1
        rw [List.flatten_cons, List.length_append] at hn
        cases n with
        | zero => omega
        | succ n =>
            have hrest := ih n (fun v hv => hws v (List.mem_cons_of_mem w hv)) (by omega)
            rw [iterate_succ]
            simp only [List.flatten_cons, List.append_assoc, if_true]
            rw [hw.2, if_pos (by simp only [List.length_append]; omega), hrest]
            rfl
  refine hiterate ws _ hws ?_
  simp only [List.length_append]
  omega

/-- A greedy repetition of a class takes all the elements of the class. -/
theorem run_greedy_one {p : α → Bool} {w rest : List α} {captures : Captures α}
    (hw : ∀ v ∈ w, p v = true) (hrest : ∀ v, rest.head? = some v → p v = false)
    (hc : c { rest, captures } = some r) :
    run (star true (one p)) { rest := w ++ rest, captures } c = some r := by
  have hflat : (w.map fun v => [v]).flatten = w := by
    rw [← List.flatMap_def]
    exact List.flatMap_singleton' w
  have hrun : run (star true (one p)) { rest := (w.map fun v => [v]).flatten ++ rest, captures } c =
      some r := run_greedy ?_ ?_ hc
  · rw [hflat] at hrun
    exact hrun
  · intro v hv
    rcases List.mem_map.mp hv with ⟨u, hu, rfl⟩
    exact ⟨List.cons_ne_nil u [], eats_one (hw u hu)⟩
  · intro c
    cases rest with
    | nil => rfl
    | cons v rest => simp [run_one, hrest v rfl]

theorem run_plus_one {p : α → Bool} {v : α} {w rest : List α} {captures : Captures α}
    (hv : p v = true) (hw : ∀ u ∈ w, p u = true)
    (hrest : ∀ u, rest.head? = some u → p u = false) (hc : c { rest, captures } = some r) :
    run (plus true (one p)) { rest := v :: (w ++ rest), captures } c = some r := by
  rw [plus, run_seq]
  have heats := eats_one (p := p) hv (w ++ rest) captures (fun y => run (star true (one p)) y c)
  rw [List.singleton_append] at heats
  rw [heats]
  exact run_greedy_one hw hrest hc

/-- A lazy repetition of a class takes the least from which the rest matches. -/
theorem run_lazy {p : α → Bool} {w rest : List α} {captures : Captures α}
    (hw : ∀ v ∈ w, p v = true)
    (hearly : ∀ v t, (v :: t) <:+ w → c { rest := v :: t ++ rest, captures } = none)
    (hc : c { rest, captures } = some r) :
    run (star false (one p)) { rest := w ++ rest, captures } c = some r := by
  have hiterate : ∀ (w : List α) (n : Nat), (∀ v ∈ w, p v = true) →
      (∀ v t, (v :: t) <:+ w → c { rest := v :: t ++ rest, captures } = none) → w.length ≤ n →
      iterate false (run (one p)) n { rest := w ++ rest, captures } c = some r := by
    intro w
    induction w with
    | nil =>
        intro n _ _ _
        cases n with
        | zero => exact hc
        | succ n =>
            rw [iterate_succ]
            simp only [List.nil_append, hc, Bool.false_eq_true, if_false, Option.some_or]
    | cons v w ih =>
        intro n hw hearly hn
        cases n with
        | zero => simp at hn
        | succ n =>
            have hnone := hearly v w List.suffix_rfl
            have hrest := ih n (fun u hu => hw u (List.mem_cons_of_mem v hu))
              (fun u t ht => hearly u t (ht.trans (List.suffix_cons v w))) (by simpa using hn)
            rw [iterate_succ]
            simp only [Bool.false_eq_true, if_false]
            rw [hnone, Option.none_or]
            have heats := eats_one (p := p) (hw v List.mem_cons_self) (w ++ rest) captures
            rw [List.singleton_append] at heats
            rw [List.cons_append, heats, if_pos (by simp), hrest]
  refine hiterate w _ hw hearly ?_
  simp only [List.length_append]
  omega

/-- What a lazy repetition leaves is captured without it. -/
theorem group_lazy {p : α → Bool} {n : Nat} {w rest : List α} {captures : Captures α}
    (hw : ∀ v ∈ w, p v = true)
    (hearly : ∀ v t cs, (v :: t) <:+ w → c { rest := v :: t ++ rest, captures := cs } = none)
    (hc : c { rest, captures := (n, w) :: captures } = some r) :
    run (group n (star false (one p))) { rest := w ++ rest, captures } c = some r := by
  rw [run_group]
  refine run_lazy hw (fun v t hsuffix => hearly v t _ hsuffix) ?_
  have hlength : (w ++ rest).length - rest.length = w.length := by
    rw [List.length_append]
    omega
  simp only [hlength, List.take_left]
  exact hc

theorem group_lazy_plus {p : α → Bool} {n : Nat} {v : α} {w rest : List α}
    {captures : Captures α} (hv : p v = true) (hw : ∀ u ∈ w, p u = true)
    (hearly : ∀ u t cs, (u :: t) <:+ w → c { rest := u :: t ++ rest, captures := cs } = none)
    (hc : c { rest, captures := (n, v :: w) :: captures } = some r) :
    run (group n (plus false (one p))) { rest := v :: w ++ rest, captures } c = some r := by
  rw [run_group, plus, run_seq]
  have heats : Eats (one p) [v] := eats_one hv
  have hlength : (v :: w ++ rest).length - rest.length = (v :: w).length := by
    rw [List.length_append]
    omega
  rw [← List.singleton_append, List.append_assoc, heats]
  refine run_lazy hw (fun u t hsuffix => hearly u t _ hsuffix) ?_
  simp only [List.singleton_append, ← List.cons_append, hlength, List.take_left]
  exact hc

end Pattern

end CopilotFleet
