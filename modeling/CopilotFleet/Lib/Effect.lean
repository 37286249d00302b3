import Mathlib.Logic.Relation

/-!
# Effects that Throw

A service that works on a store changes it statement by statement, and throws
in the middle when something is wrong. What it has changed by then stays
changed, unless it was inside a transaction, which puts back what it covers.
`Effect` is that: a state and a result or an error, where an error keeps the
state.

Two things are said about such a computation. `Returns` is exact: from this
state it returns this and ends there, and a sequence is taken apart by
`returns_bind`. `Does` is what remains true whether it throws or not: the state
it ends in is related to the one it began in, by a relation that composes, and
where it returns something is known of the result. A loop needs only what every
turn of it does.

## Main definitions

* `Effect`: Changes a state and may throw.
* `transaction`: All of it or nothing, as far as `restore` reaches.
* `Returns`: The exact outcome of a computation that does not throw.
* `Does`: What a computation does to its state, throwing or not.
* `Abstraction`: A view of the state, its steps and what they keep.
* `Refines`: A computation is a number of steps of its abstraction.
* `Yields`: The same, only where the computation returns.
* `Silent`: A computation that changes nothing in view.

## Theorems

* `returns_bind`: A sequence that returns, taken apart.
* `Does.bind`: One after the other.
* `Does.each`: A loop that every turn leaves as it found.
* `Refines.bind`, `Refines.each`: The same for the steps of an abstraction.
* `Refines.stable`: What no step disturbs is still so afterwards.
-/

namespace CopilotFleet

/-- Changes a state and may throw, and keeps what it changed before. -/
def Effect (σ ε α : Type) : Type := σ → Except ε α × σ

namespace Effect

variable {σ ε α β : Type}

instance : Monad (Effect σ ε) where
  pure a := fun s => (.ok a, s)
  bind m f := fun s =>
    match m s with
    | (.ok a, s') => f a s'
    | (.error e, s') => (.error e, s')

def reads (f : σ → α) : Effect σ ε α := fun s => (.ok (f s), s)

def writes (f : σ → σ) : Effect σ ε Unit := fun s => (.ok (), f s)

def raise (e : ε) : Effect σ ε α := fun s => (.error e, s)

/-- The handler goes on from where the computation threw. -/
def rescue (m : Effect σ ε α) (handler : ε → Effect σ ε α) : Effect σ ε α := fun s =>
  match m s with
  | (.ok a, s') => (.ok a, s')
  | (.error e, s') => handler e s'

/-- A throw puts back what `restore` covers: the state before, and the state
    the throw left. -/
def transaction (restore : σ → σ → σ) (m : Effect σ ε α) : Effect σ ε α := fun s =>
  match m s with
  | (.ok a, s') => (.ok a, s')
  | (.error e, s') => (.error e, restore s s')

def whenever (c : Bool) (m : Effect σ ε Unit) : Effect σ ε Unit := if c then m else pure ()

def each : List β → (β → Effect σ ε Unit) → Effect σ ε Unit
  | [], _ => pure ()
  | x :: rest, f => do
      f x
      each rest f

/-- The computation returns `a` and ends in `s'`. -/
def Returns (m : Effect σ ε α) (s : σ) (a : α) (s' : σ) : Prop := m s = (.ok a, s')

theorem returns_pure {a b : α} {s s' : σ} :
    Returns (pure a : Effect σ ε α) s b s' ↔ a = b ∧ s = s' := by
  constructor
  · intro h
    have hpair := Prod.mk.inj h
    exact ⟨Except.ok.inj hpair.1, hpair.2⟩
  · rintro ⟨rfl, rfl⟩
    rfl

theorem returns_reads {f : σ → α} {a : α} {s s' : σ} :
    Returns (reads f : Effect σ ε α) s a s' ↔ f s = a ∧ s = s' := by
  constructor
  · intro h
    have hpair := Prod.mk.inj h
    exact ⟨Except.ok.inj hpair.1, hpair.2⟩
  · rintro ⟨rfl, rfl⟩
    rfl

theorem returns_writes {f : σ → σ} {a : Unit} {s s' : σ} :
    Returns (writes f : Effect σ ε Unit) s a s' ↔ f s = s' := by
  constructor
  · intro h
    exact (Prod.mk.inj h).2
  · rintro rfl
    rfl

theorem not_returns_raise {e : ε} {a : α} {s s' : σ} : ¬Returns (raise e : Effect σ ε α) s a s' := by
  intro h
  cases (Prod.mk.inj h).1

theorem reads_bind (f : σ → α) (k : α → Effect σ ε β) (s : σ) : (reads f >>= k) s = k (f s) s := rfl

theorem writes_bind (f : σ → σ) (k : Unit → Effect σ ε β) (s : σ) :
    (writes f >>= k) s = k () (f s) := rfl

theorem bind_ok {m : Effect σ ε α} {f : α → Effect σ ε β} {s t : σ} {a : α}
    (h : m s = (.ok a, t)) : (m >>= f) s = f a t := by
  simp only [bind, h]

theorem bind_error {m : Effect σ ε α} {f : α → Effect σ ε β} {s t : σ} {e : ε}
    (h : m s = (.error e, t)) : (m >>= f) s = (.error e, t) := by
  simp only [bind, h]

/-- A computation returns or throws. -/
theorem outcome (m : Effect σ ε α) (s : σ) :
    (∃ a s', m s = (.ok a, s')) ∨ ∃ e s', m s = (.error e, s') := by
  rcases hm : m s with ⟨_ | a, s'⟩
  · exact .inr ⟨_, s', rfl⟩
  · exact .inl ⟨a, s', rfl⟩

theorem returns_bind {m : Effect σ ε α} {f : α → Effect σ ε β} {s s₂ : σ} {b : β} :
    Returns (m >>= f) s b s₂ ↔ ∃ a s₁, Returns m s a s₁ ∧ Returns (f a) s₁ b s₂ := by
  unfold Returns
  constructor
  · intro h
    rcases outcome m s with ⟨a, s₁, hm⟩ | ⟨e, s₁, hm⟩
    · rw [bind_ok hm] at h
      exact ⟨a, s₁, hm, h⟩
    · rw [bind_error hm] at h
      cases (Prod.mk.inj h).1
  · rintro ⟨a, s₁, hm, hf⟩
    rw [bind_ok hm, hf]

theorem returns_transaction {restore : σ → σ → σ} {m : Effect σ ε α} {s s' : σ} {a : α} :
    Returns (transaction restore m) s a s' ↔ Returns m s a s' := by
  unfold Returns transaction
  rcases outcome m s with ⟨b, s₁, hm⟩ | ⟨e, s₁, hm⟩
  · rw [hm]
  · rw [hm]
    constructor
    · intro h
      cases (Prod.mk.inj h).1
    · intro h
      cases (Prod.mk.inj h).1

/-- From a state of `P`, the computation ends in a state related to it, and
    where it returns, what it returns and where it ends meet `Q`. -/
def Does (R : σ → σ → Prop) (P : σ → Prop) (m : Effect σ ε α) (Q : α → σ → Prop) : Prop :=
  ∀ s, P s → R s (m s).2 ∧ ∀ a s', Returns m s a s' → Q a s'

section

variable {R : σ → σ → Prop} {P P' : σ → Prop} {Q Q' : α → σ → Prop} {m : Effect σ ε α}

theorem Does.imp (h : Does R P m Q) (hP : ∀ s, P' s → P s) (hQ : ∀ a s, Q a s → Q' a s) :
    Does R P' m Q' := by
  intro s hs
  rcases h s (hP s hs) with ⟨hR, hret⟩
  exact ⟨hR, fun a s' ha => hQ a s' (hret a s' ha)⟩

theorem Does.pure (hrefl : ∀ s, R s s) {a : α} (h : ∀ s, P s → Q a s) :
    Does R P (pure a : Effect σ ε α) Q := by
  intro s hs
  refine ⟨hrefl s, fun b s' hret => ?_⟩
  rcases returns_pure.mp hret with ⟨rfl, rfl⟩
  exact h s hs

theorem Does.raise (hrefl : ∀ s, R s s) {e : ε} : Does R P (raise e : Effect σ ε α) Q := by
  intro s _
  exact ⟨hrefl s, fun a s' hret => (not_returns_raise hret).elim⟩

/-- What is read is known of the state it is read in. -/
theorem Does.reads (hrefl : ∀ s, R s s) {f : σ → α} (h : ∀ s, P s → Q (f s) s) :
    Does R P (reads f : Effect σ ε α) Q := by
  intro s hs
  refine ⟨hrefl s, fun b s' hret => ?_⟩
  rcases returns_reads.mp hret with ⟨rfl, rfl⟩
  exact h s hs

theorem Does.bind (htrans : ∀ a b c, R a b → R b c → R a c) {f : α → Effect σ ε β}
    {Q' : β → σ → Prop} (hm : Does R P m Q) (hf : ∀ a, Does R (Q a) (f a) Q') :
    Does R P (m >>= f) Q' := by
  intro s hs
  rcases hm s hs with ⟨hR, hret⟩
  refine ⟨?_, ?_⟩
  · rcases outcome m s with ⟨a, s₁, heq⟩ | ⟨e, s₁, heq⟩
    · rw [bind_ok heq]
      rw [heq] at hR
      exact htrans _ _ _ hR (hf a s₁ (hret a s₁ heq)).1
    · rw [bind_error heq]
      rw [heq] at hR
      exact hR
  · intro b s₂ h
    rcases returns_bind.mp h with ⟨a, s₁, ha, hb⟩
    exact (hf a s₁ (hret a s₁ ha)).2 b s₂ hb

theorem Does.rescue (htrans : ∀ a b c, R a b → R b c → R a c) {handler : ε → Effect σ ε α}
    {E : σ → Prop} (hm : Does R P m Q) (hthrown : ∀ s s' e, P s → m s = (.error e, s') → E s')
    (hhandler : ∀ e, Does R E (handler e) Q) : Does R P (rescue m handler) Q := by
  intro s hs
  rcases hm s hs with ⟨hR, hret⟩
  unfold Returns Effect.rescue
  rcases outcome m s with ⟨a, s₁, heq⟩ | ⟨e, s₁, heq⟩
  · rw [heq] at hR ⊢
    refine ⟨hR, fun b s' h => ?_⟩
    exact hret b s' (heq.trans h)
  · rw [heq] at hR ⊢
    rcases hhandler e s₁ (hthrown s s₁ e hs heq) with ⟨hR', hret'⟩
    exact ⟨htrans _ _ _ hR hR', hret'⟩

/-- What holds of a loop may speak of the turns that are still to come. -/
theorem Does.each_rest (hrefl : ∀ s, R s s) (htrans : ∀ a b c, R a b → R b c → R a c)
    {f : β → Effect σ ε Unit} {I : List β → σ → Prop} {xs : List β}
    (h : ∀ x rest, (∃ before, xs = before ++ x :: rest) →
      Does R (I (x :: rest)) (f x) fun _ => I rest) :
    Does R (I xs) (each xs f) fun _ => I [] := by
  induction xs with
  | nil => exact Does.pure hrefl fun _ hs => hs
  | cons x rest ih =>
      refine Does.bind htrans (h x rest ⟨[], rfl⟩) fun _ => ?_
      refine ih fun y rest' hsplit => h y rest' ?_
      rcases hsplit with ⟨before, hbefore⟩
      exact ⟨x :: before, by rw [hbefore, List.cons_append]⟩

theorem Does.each (hrefl : ∀ s, R s s) (htrans : ∀ a b c, R a b → R b c → R a c) {xs : List β}
    {f : β → Effect σ ε Unit} (h : ∀ x ∈ xs, Does R P (f x) fun _ => P) :
    Does R P (each xs f) fun _ => P := by
  refine Does.each_rest hrefl htrans (I := fun _ => P) fun x rest hsplit => h x ?_
  rcases hsplit with ⟨before, hbefore⟩
  rw [hbefore]
  exact List.mem_append_right _ List.mem_cons_self

end

/-! ### Steps of an abstraction -/

/-- A view of the state, the steps it may take, and what every step keeps. -/
structure Abstraction (σ κ : Type) where
  view : σ → κ
  Step : κ → κ → Prop
  Inv : κ → Prop
  keeps : ∀ c c', Inv c → Step c c' → Inv c'

namespace Abstraction

variable {κ : Type} (A : Abstraction σ κ)

def Steps : κ → κ → Prop := Relation.ReflTransGen A.Step

theorem Steps.refl (s : σ) : A.Steps (A.view s) (A.view s) := Relation.ReflTransGen.refl

theorem Steps.trans (s₁ s₂ s₃ : σ) (h : A.Steps (A.view s₁) (A.view s₂))
    (h' : A.Steps (A.view s₂) (A.view s₃)) : A.Steps (A.view s₁) (A.view s₃) :=
  Relation.ReflTransGen.trans h h'

theorem Steps.keeps {c c' : κ} (h : A.Steps c c') (hc : A.Inv c) : A.Inv c' := by
  induction h with
  | refl => exact hc
  | tail _ hstep ih => exact A.keeps _ _ ih hstep

/-- No step from where the invariant holds makes it false. -/
def Stable (P : κ → Prop) : Prop := ∀ c c', A.Inv c → A.Step c c' → P c → P c'

theorem Stable.steps {P : κ → Prop} (hP : A.Stable P) {c c' : κ} (h : A.Steps c c')
    (hc : A.Inv c) (hPc : P c) : P c' := by
  induction h with
  | refl => exact hPc
  | tail hsteps hstep ih => exact hP _ _ (Steps.keeps A hsteps hc) hstep ih

theorem Stable.and {P Q : κ → Prop} (hP : A.Stable P) (hQ : A.Stable Q) :
    A.Stable fun c => P c ∧ Q c :=
  fun c c' hc hstep h => ⟨hP c c' hc hstep h.1, hQ c c' hc hstep h.2⟩

theorem Stable.forall {ι : Sort*} {P : ι → κ → Prop} (hP : ∀ i, A.Stable (P i)) :
    A.Stable fun c => ∀ i, P i c :=
  fun c c' hc hstep h i => hP i c c' hc hstep (h i)

/-- A computation is a number of steps, whether it throws or not. -/
def Refines (P : κ → Prop) (m : Effect σ ε α) (Q : α → κ → Prop) : Prop :=
  Does (fun s s' => A.Steps (A.view s) (A.view s')) (fun s => A.Inv (A.view s) ∧ P (A.view s)) m
    fun a s => A.Inv (A.view s) ∧ Q a (A.view s)

/-- Where the computation returns, it was a number of steps. -/
def Yields (P : κ → Prop) (m : Effect σ ε α) (Q : α → κ → Prop) : Prop :=
  ∀ s a s', A.Inv (A.view s) → P (A.view s) → Returns m s a s' →
    A.Steps (A.view s) (A.view s') ∧ Q a (A.view s')

/-- Nothing in view changes, whether the computation throws or not. -/
def Silent (m : Effect σ ε α) : Prop := ∀ s, A.view (m s).2 = A.view s

section

variable {A} {P P' : κ → Prop} {Q Q' : α → κ → Prop} {m : Effect σ ε α}

theorem Refines.of (hsteps : ∀ s, A.Inv (A.view s) → P (A.view s) →
      A.Steps (A.view s) (A.view (m s).2))
    (hret : ∀ s a s', A.Inv (A.view s) → P (A.view s) → Returns m s a s' → Q a (A.view s')) :
    A.Refines P m Q := by
  intro s hs
  have hs' := hsteps s hs.1 hs.2
  refine ⟨hs', fun a s' ha => ?_⟩
  have heq : (m s).2 = s' := congrArg Prod.snd ha
  rw [heq] at hs'
  exact ⟨Steps.keeps A hs' hs.1, hret s a s' hs.1 hs.2 ha⟩

theorem Refines.imp (h : A.Refines P m Q) (hP : ∀ c, A.Inv c → P' c → P c)
    (hQ : ∀ a c, A.Inv c → Q a c → Q' a c) : A.Refines P' m Q' :=
  Does.imp h (fun _ hs => ⟨hs.1, hP _ hs.1 hs.2⟩) fun _ _ hs => ⟨hs.1, hQ _ _ hs.1 hs.2⟩

theorem Refines.bind {f : α → Effect σ ε β} {Q' : β → κ → Prop} (hm : A.Refines P m Q)
    (hf : ∀ a, A.Refines (Q a) (f a) Q') : A.Refines P (m >>= f) Q' :=
  Does.bind (Steps.trans A) hm hf

theorem Refines.pure {a : α} (h : ∀ c, A.Inv c → P c → Q a c) :
    A.Refines P (pure a : Effect σ ε α) Q :=
  Does.pure (Steps.refl A) fun _ hs => ⟨hs.1, h _ hs.1 hs.2⟩

theorem Refines.raise {e : ε} : A.Refines P (raise e : Effect σ ε α) Q :=
  Does.raise (Steps.refl A)

theorem Refines.reads {f : σ → α} (h : ∀ s, A.Inv (A.view s) → P (A.view s) → Q (f s) (A.view s)) :
    A.Refines P (reads f : Effect σ ε α) Q :=
  Does.reads (Steps.refl A) fun s hs => ⟨hs.1, h s hs.1 hs.2⟩

/-- What nobody needs to know of an answer is not kept. -/
theorem Refines.asks {f : σ → α} {g : α → Effect σ ε β} {Q' : β → κ → Prop}
    (h : ∀ a, A.Refines P (g a) Q') : A.Refines P (Effect.reads f >>= g) Q' :=
  Refines.bind (Refines.reads (Q := fun _ => P) fun _ _ hs => hs) h

theorem Refines.silent (h : A.Silent m) (hQ : ∀ a c, A.Inv c → P c → Q a c) :
    A.Refines P m Q := by
  refine Refines.of (fun s _ _ => ?_) fun s a s' hinv hs ha => ?_
  · rw [h s]
    exact Relation.ReflTransGen.refl
  · have heq : (m s).2 = s' := congrArg Prod.snd ha
    rw [← heq, h s]
    exact hQ a _ hinv hs

/-- One write that is one step. -/
theorem Refines.writes {f : σ → σ} {Q : Unit → κ → Prop}
    (hstep : ∀ s, A.Inv (A.view s) → P (A.view s) → A.Step (A.view s) (A.view (f s)))
    (hQ : ∀ s, A.Inv (A.view s) → P (A.view s) → Q () (A.view (f s))) :
    A.Refines P (writes f : Effect σ ε Unit) Q := by
  refine Refines.of (fun s hinv hs => .single (hstep s hinv hs)) fun s a s' hinv hs ha => ?_
  rw [← returns_writes.mp ha]
  exact hQ s hinv hs

theorem Refines.rescue {handler : ε → Effect σ ε α} (hm : A.Refines P m Q)
    (hthrown : ∀ e, A.Refines (fun _ => True) (handler e) Q) :
    A.Refines P (rescue m handler) Q := by
  refine Does.rescue (E := fun s => A.Inv (A.view s)) (Steps.trans A) hm
    (fun s s' e hs heq => ?_) fun e => Does.imp (hthrown e) (fun _ hs => ⟨hs, trivial⟩)
      fun _ _ hs => hs
  have hsteps := (hm s hs).1
  rw [heq] at hsteps
  exact Steps.keeps A hsteps hs.1

theorem Refines.each_rest {f : β → Effect σ ε Unit} {I : List β → κ → Prop} {xs : List β}
    (h : ∀ x rest, (∃ before, xs = before ++ x :: rest) →
      A.Refines (I (x :: rest)) (f x) fun _ => I rest) :
    A.Refines (I xs) (each xs f) fun _ => I [] :=
  Does.each_rest (I := fun rest s => A.Inv (A.view s) ∧ I rest (A.view s))
    (Steps.refl A) (Steps.trans A) h

theorem Refines.each {f : β → Effect σ ε Unit} {xs : List β}
    (h : ∀ x ∈ xs, A.Refines P (f x) fun _ => P) : A.Refines P (each xs f) fun _ => P :=
  Does.each (Steps.refl A) (Steps.trans A) h

/-- What no step disturbs need not be carried along. -/
theorem Refines.stable (h : A.Refines P m Q) (hP' : A.Stable P') (hP : ∀ c, P' c → P c) :
    A.Refines P' m fun a c => Q a c ∧ P' c := by
  intro s hs
  rcases h s ⟨hs.1, hP _ hs.2⟩ with ⟨hsteps, hret⟩
  refine ⟨hsteps, fun a s' ha => ?_⟩
  have heq : (m s).2 = s' := congrArg Prod.snd ha
  rw [heq] at hsteps
  exact ⟨(hret a s' ha).1, (hret a s' ha).2, hP'.steps A hsteps hs.1 hs.2⟩

/-- A loop over what was found before, each turn of which needs only what no
    turn disturbs. -/
theorem Refines.each_stable {f : β → Effect σ ε Unit} {xs : List β} {I : β → κ → Prop}
    (hI : ∀ x, A.Stable (I x)) (h : ∀ x, A.Refines (I x) (f x) fun _ _ => True) :
    A.Refines (fun c => ∀ x ∈ xs, I x c) (Effect.each xs f) fun _ _ => True := by
  have hall : A.Stable fun c => ∀ x ∈ xs, I x c :=
    Stable.forall A fun x => Stable.forall A fun _ => hI x
  refine Refines.imp (Refines.each (P := fun c => ∀ x ∈ xs, I x c) fun x hx => ?_)
    (fun _ _ hc => hc) fun _ _ _ _ => trivial
  exact Refines.imp (Refines.stable (h x) hall fun c hc => hc x hx) (fun _ _ hc => hc)
    fun _ _ _ hc => hc.2

end

/-! What is inside a transaction counts only where it returns. -/

section

variable {A} {P P' : κ → Prop} {Q Q' : α → κ → Prop} {m : Effect σ ε α}

theorem Refines.yields (h : A.Refines P m Q) : A.Yields P m Q := by
  intro s a s' hinv hs ha
  rcases h s ⟨hinv, hs⟩ with ⟨hsteps, hret⟩
  rw [show (m s).2 = s' from congrArg Prod.snd ha] at hsteps
  exact ⟨hsteps, (hret a s' ha).2⟩

theorem Yields.imp (h : A.Yields P m Q) (hP : ∀ c, A.Inv c → P' c → P c)
    (hQ : ∀ a c, A.Inv c → Q a c → Q' a c) : A.Yields P' m Q' := by
  intro s a s' hinv hs ha
  rcases h s a s' hinv (hP _ hinv hs) ha with ⟨hsteps, hq⟩
  exact ⟨hsteps, hQ a _ (Steps.keeps A hsteps hinv) hq⟩

theorem Yields.bind {f : α → Effect σ ε β} {Q' : β → κ → Prop} (hm : A.Yields P m Q)
    (hf : ∀ a, A.Yields (Q a) (f a) Q') : A.Yields P (m >>= f) Q' := by
  intro s b s₂ hinv hs h
  rcases returns_bind.mp h with ⟨a, s₁, ha, hb⟩
  rcases hm s a s₁ hinv hs ha with ⟨hsteps, hq⟩
  rcases hf a s₁ b s₂ (Steps.keeps A hsteps hinv) hq hb with ⟨hsteps', hq'⟩
  exact ⟨Relation.ReflTransGen.trans hsteps hsteps', hq'⟩

theorem Yields.pure {a : α} (h : ∀ c, A.Inv c → P c → Q a c) :
    A.Yields P (pure a : Effect σ ε α) Q := (Refines.pure h).yields

theorem Yields.asks {f : σ → α} {g : α → Effect σ ε β} {Q' : β → κ → Prop}
    (h : ∀ a, A.Yields P (g a) Q') : A.Yields P (Effect.reads f >>= g) Q' :=
  Yields.bind (Refines.reads (Q := fun _ => P) fun _ _ hs => hs).yields h

theorem Yields.each_rest {f : β → Effect σ ε Unit} {I : List β → κ → Prop} {xs : List β}
    (h : ∀ x rest, (∃ before, xs = before ++ x :: rest) →
      A.Yields (I (x :: rest)) (f x) fun _ => I rest) :
    A.Yields (I xs) (Effect.each xs f) fun _ => I [] := by
  induction xs with
  | nil => exact Yields.pure fun _ _ hs => hs
  | cons x rest ih =>
      refine Yields.bind (h x rest ⟨[], rfl⟩) fun _ => ?_
      refine ih fun y rest' hsplit => h y rest' ?_
      rcases hsplit with ⟨before, hbefore⟩
      exact ⟨x :: before, by rw [hbefore, List.cons_append]⟩

theorem Yields.stable (h : A.Yields P m Q) (hP' : A.Stable P') (hP : ∀ c, P' c → P c) :
    A.Yields P' m fun a c => Q a c ∧ P' c := by
  intro s a s' hinv hs ha
  rcases h s a s' hinv (hP _ hs) ha with ⟨hsteps, hq⟩
  exact ⟨hsteps, hq, hP'.steps A hsteps hinv hs⟩

theorem Yields.each_stable {f : β → Effect σ ε Unit} {xs : List β} {I : β → κ → Prop}
    (hI : ∀ x, A.Stable (I x)) (h : ∀ x, A.Yields (I x) (f x) fun _ _ => True) :
    A.Yields (fun c => ∀ x ∈ xs, I x c) (Effect.each xs f) fun _ _ => True := by
  have hall : A.Stable fun c => ∀ x ∈ xs, I x c :=
    Stable.forall A fun x => Stable.forall A fun _ => hI x
  refine Yields.imp (Yields.each_rest (I := fun _ c => ∀ x ∈ xs, I x c) fun x rest hsplit => ?_)
    (fun _ _ hc => hc) fun _ _ _ _ => trivial
  rcases hsplit with ⟨before, hbefore⟩
  have hmem : x ∈ xs := by
    rw [hbefore]
    exact List.mem_append_right _ List.mem_cons_self
  exact Yields.imp (Yields.stable (h x) hall fun c hc => hc x hmem) (fun _ _ hc => hc)
    fun _ _ _ hc => hc.2

end

section

variable {A} {m : Effect σ ε α}

theorem Silent.pure {a : α} : A.Silent (pure a : Effect σ ε α) := fun _ => rfl

theorem Silent.raise {e : ε} : A.Silent (raise e : Effect σ ε α) := fun _ => rfl

theorem Silent.reads {f : σ → α} : A.Silent (reads f : Effect σ ε α) := fun _ => rfl

theorem Silent.writes {f : σ → σ} (h : ∀ s, A.view (f s) = A.view s) :
    A.Silent (writes f : Effect σ ε Unit) := h

theorem Silent.bind {f : α → Effect σ ε β} (hm : A.Silent m) (hf : ∀ a, A.Silent (f a)) :
    A.Silent (m >>= f) := by
  intro s
  have hs := hm s
  rcases outcome m s with ⟨a, s₁, heq⟩ | ⟨e, s₁, heq⟩
  · rw [heq] at hs
    rw [bind_ok heq, hf a s₁]
    exact hs
  · rw [heq] at hs
    rw [bind_error heq]
    exact hs

theorem Silent.each {f : β → Effect σ ε Unit} {xs : List β} (h : ∀ x ∈ xs, A.Silent (f x)) :
    A.Silent (each xs f) := by
  induction xs with
  | nil => exact Silent.pure
  | cons x rest ih =>
      refine Silent.bind (h x List.mem_cons_self) fun _ => ?_
      exact ih fun y hy => h y (List.mem_cons_of_mem _ hy)

end

end Abstraction

end Effect

end CopilotFleet
