import CopilotFleet.Lib.Joined
import CopilotFleet.Lib.JsonString
import CopilotFleet.Lib.Refusal
import Mathlib.Data.List.Nodup
import Mathlib.Data.List.Perm.Basic

/-!
# Canonical JSON

A Node commits to a registration payload by hashing it before the Host has
seen it. Both ends hash the payload as JSON with the keys of every object in
one order, and what cannot be written the same way twice is refused.

What has to be true of that text is that it says which payload it is, up to
the order of keys and nothing else. One half is that sorting forgets the order
of keys (`text_of_same`). The other is that the text is read in one
way: a string and a bracket say where they end, a number ends where no unit of
a number stands, and so each value is read off the front of whatever it stands
in (`text_unique`).

How a number is written is the platform's. What is used of it is what the
format asks of it, and that different numbers are written differently.

## Main definitions

* `Value`: A value of the language, as far as it is written.
* `canonicalJson`: JSON with every object's keys in one order.
* `registrationHash`: What the Node commits to.
* `Plain`: A value that is a JSON value.
* `Same`: Equality up to the order of keys.

## Theorems

* `canonicalJson_plain`: A JSON value is written.
* `text_unique`: What is written is read in one way.
* `canonicalJson_iff_same`: The same text is the same value up to the order of keys.
-/

namespace CopilotFleet

namespace CanonicalJson

open Utf16 JsonString Joined

/-- A value of the language. What is neither JSON nor an object is known by its `typeof`. -/
inductive Value (N : Type) where
  | null
  | boolean (value : Bool)
  | number (value : N)
  | string (value : Text)
  | array (values : List (Value N))
  | object (entries : List (Text × Value N))
  | other (typeOf : Text)

/-- What the platform does with numbers. -/
structure Numbers (N : Type) where
  isFinite : N → Bool
  isNegativeZero : N → Bool
  stringify : N → Text

def comma : UInt16 := 0x2C

def colon : UInt16 := 0x3A

def openBracket : UInt16 := 0x5B

def closeBracket : UInt16 := 0x5D

def openBrace : UInt16 := 0x7B

def closeBrace : UInt16 := 0x7D

variable {N : Type}

/-- The entries in the order of their keys, unit by unit. -/
def sorted (entries : List (Text × Value N)) : List (Text × Value N) :=
  entries.mergeSort fun a b => !decide (b.1 < a.1)

/-- JSON with every object's keys in one order. -/
def canonicalJson (numbers : Numbers N) : Value N → Except Text Text
  | .null => .ok (ofString "null")
  | .boolean value => .ok (if value then ofString "true" else ofString "false")
  | .number value =>
      if !numbers.isFinite value then
        .error (ofString "A canonical payload cannot hold a non-finite number.")
      else .ok (numbers.stringify value)
  | .string value => .ok (stringify value)
  | .array values => do
      let texts ← values.mapM fun entry => canonicalJson numbers entry
      pure (openBracket :: ([comma].intercalate texts ++ [closeBracket]))
  | .object entries => do
      let texts ← (sorted entries).attach.mapM fun entry => do
        let text ← canonicalJson numbers entry.1.2
        pure (stringify entry.1.1 ++ colon :: text)
      pure (openBrace :: ([comma].intercalate texts ++ [closeBrace]))
  | .other typeOf => .error (ofString "A canonical payload cannot hold a " ++ typeOf ++ [0x2E])
termination_by value => sizeOf value
decreasing_by
  · have hmem := List.sizeOf_lt_of_mem ‹entry ∈ values›
    simp only [Value.array.sizeOf_spec]
    omega
  · -- Sorting keeps the entries, and each is smaller than all of them.
    have hmem := List.sizeOf_lt_of_mem ((List.mergeSort_perm entries _).mem_iff.mp entry.2)
    rcases entry with ⟨⟨key, value⟩, hentry⟩
    simp only [Prod.mk.sizeOf_spec] at hmem
    simp only [Value.object.sizeOf_spec]
    omega

/-- What the Node commits to before the Host has seen the payload. -/
def registrationHash (numbers : Numbers N) (sha256Hex : List UInt8 → Text) (payload : Value N) :
    Except Text Text := do
  let text ← canonicalJson numbers payload
  pure (sha256Hex (toUtf8 text))

/-! ### Values that are JSON -/

/-- A value that is a JSON value, its numbers finite and none of them the zero below zero. -/
inductive Plain (numbers : Numbers N) : Value N → Prop where
  | null : Plain numbers .null
  | boolean (value : Bool) : Plain numbers (.boolean value)
  | number {value : N} (hfinite : numbers.isFinite value = true)
      (hzero : numbers.isNegativeZero value = false) : Plain numbers (.number value)
  | string (value : Text) : Plain numbers (.string value)
  | array {values : List (Value N)} (h : ∀ value ∈ values, Plain numbers value) :
      Plain numbers (.array values)
  | object {entries : List (Text × Value N)} (hkeys : (entries.map Prod.fst).Nodup)
      (h : ∀ entry ∈ entries, Plain numbers entry.2) : Plain numbers (.object entries)

/-- Equality up to the order of the keys of every object. -/
inductive Same : Value N → Value N → Prop where
  | null : Same .null .null
  | boolean (value : Bool) : Same (.boolean value) (.boolean value)
  | number (value : N) : Same (.number value) (.number value)
  | string (value : Text) : Same (.string value) (.string value)
  | array {values values' : List (Value N)} (h : List.Forall₂ Same values values') :
      Same (.array values) (.array values')
  | object {entries moved entries' : List (Text × Value N)} (hmoved : entries.Perm moved)
      (hkeys : moved.map Prod.fst = entries'.map Prod.fst)
      (h : List.Forall₂ Same (moved.map Prod.snd) (entries'.map Prod.snd)) :
      Same (.object entries) (.object entries')

/-! ### What is written -/

/-- The units a number is written with. -/
def isNumeral (u : UInt16) : Bool :=
  (0x30 ≤ u && u ≤ 0x39) || u = 0x2B || u = 0x2D || u = 0x2E || u = 0x65

/-- What the platform promises: a finite number is written as the format has it, and two
    that are not the same are written differently. -/
structure Numbers.Lawful (numbers : Numbers N) : Prop where
  grammar : ∀ n, numbers.isFinite n = true →
    numbers.stringify n ≠ [] ∧ ∀ u ∈ numbers.stringify n, isNumeral u = true
  injective : ∀ m n, numbers.isFinite m = true → numbers.isFinite n = true →
    numbers.isNegativeZero m = false → numbers.isNegativeZero n = false →
      numbers.stringify m = numbers.stringify n → m = n

variable (numbers : Numbers N)

/-- The text of a value that is written. -/
def text (value : Value N) : Text := (canonicalJson numbers value).toOption.getD []

def entryText (entry : Text × Value N) : Text := stringify entry.1 ++ colon :: text numbers entry.2

variable {numbers}

theorem text_of_ok {value : Value N} {written : Text}
    (h : canonicalJson numbers value = .ok written) : text numbers value = written := by
  rw [text, h]
  rfl

/-- What is written, without the proofs that the recursion ends. -/
theorem canonicalJson_eq (value : Value N) :
    canonicalJson numbers value = match value with
      | .null => .ok (ofString "null")
      | .boolean value => .ok (if value then ofString "true" else ofString "false")
      | .number value =>
          if !numbers.isFinite value then
            .error (ofString "A canonical payload cannot hold a non-finite number.")
          else .ok (numbers.stringify value)
      | .string value => .ok (stringify value)
      | .array values => do
          let texts ← values.mapM (canonicalJson numbers)
          pure (openBracket :: ([comma].intercalate texts ++ [closeBracket]))
      | .object entries => do
          let texts ← (sorted entries).mapM fun entry => do
            let text ← canonicalJson numbers entry.2
            pure (stringify entry.1 ++ colon :: text)
          pure (openBrace :: ([comma].intercalate texts ++ [closeBrace]))
      | .other typeOf =>
          .error (ofString "A canonical payload cannot hold a " ++ typeOf ++ [0x2E]) := by
  cases value with
  | object entries =>
      have hattach : (sorted entries).attach.map Subtype.val = sorted entries :=
        List.attach_map_subtype_val _
      rw [canonicalJson]
      simp only
      conv => rhs; rw [← hattach, List.mapM_map]
      rfl
  | null | boolean | number | string | array | other => rw [canonicalJson]

theorem canonicalJson_array {values : List (Value N)}
    (h : ∀ value ∈ values, canonicalJson numbers value = .ok (text numbers value)) :
    canonicalJson numbers (.array values) =
      .ok (openBracket :: ([comma].intercalate (values.map (text numbers)) ++ [closeBracket])) := by
  rw [canonicalJson_eq]
  simp only [Refusal.mapM_ok_of h]
  rfl

theorem mem_sorted {entries : List (Text × Value N)} {entry : Text × Value N} :
    entry ∈ sorted entries ↔ entry ∈ entries :=
  (List.mergeSort_perm entries _).mem_iff

theorem canonicalJson_object {entries : List (Text × Value N)}
    (h : ∀ entry ∈ entries, canonicalJson numbers entry.2 = .ok (text numbers entry.2)) :
    canonicalJson numbers (.object entries) =
      .ok (openBrace :: ([comma].intercalate ((sorted entries).map (entryText numbers)) ++
        [closeBrace])) := by
  have hwritten : ∀ entry ∈ sorted entries, (do
      let text ← canonicalJson numbers entry.2
      pure (stringify entry.1 ++ colon :: text)) = .ok (entryText numbers entry) := by
    intro entry hentry
    rw [h entry (mem_sorted.mp hentry)]
    rfl
  rw [canonicalJson_eq]
  simp only [Refusal.mapM_ok_of hwritten]
  rfl

/-- A JSON value is written. -/
theorem canonicalJson_plain {value : Value N} (h : Plain numbers value) :
    canonicalJson numbers value = .ok (text numbers value) := by
  have hok : ∀ {value : Value N} {written : Text}, canonicalJson numbers value = .ok written →
      canonicalJson numbers value = .ok (text numbers value) := by
    intro value written hwritten
    rw [text_of_ok hwritten, hwritten]
  induction h with
  | null => exact hok (canonicalJson_eq _)
  | boolean value => exact hok (canonicalJson_eq _)
  | @number value hfinite _ =>
      refine @hok _ (numbers.stringify value) ((canonicalJson_eq _).trans ?_)
      simp [hfinite]
  | string value => exact hok (canonicalJson_eq _)
  | array _ ih => exact hok (canonicalJson_array ih)
  | object _ _ ih => exact hok (canonicalJson_object ih)

theorem text_null : text numbers .null = ofString "null" := text_of_ok (canonicalJson_eq _)

theorem text_boolean (value : Bool) :
    text numbers (.boolean value) = if value then ofString "true" else ofString "false" :=
  text_of_ok (canonicalJson_eq _)

theorem text_number {value : N} (h : numbers.isFinite value = true) :
    text numbers (.number value) = numbers.stringify value :=
  text_of_ok ((canonicalJson_eq _).trans (by simp [h]))

theorem text_string (value : Text) : text numbers (.string value) = stringify value :=
  text_of_ok (canonicalJson_eq _)

theorem text_array {values : List (Value N)} (h : ∀ value ∈ values, Plain numbers value) :
    text numbers (.array values) =
      openBracket :: ([comma].intercalate (values.map (text numbers)) ++ [closeBracket]) :=
  text_of_ok (canonicalJson_array fun value hmem => canonicalJson_plain (h value hmem))

theorem text_object {entries : List (Text × Value N)}
    (h : ∀ entry ∈ entries, Plain numbers entry.2) :
    text numbers (.object entries) = openBrace ::
      ([comma].intercalate ((sorted entries).map (entryText numbers)) ++ [closeBrace]) :=
  text_of_ok (canonicalJson_object fun entry hmem => canonicalJson_plain (h entry hmem))

/-! ### Sorting forgets the order of keys -/

/-- The order of keys. -/
def byKey {γ : Type} (a b : Text × γ) : Bool := !decide (b.1 < a.1)

theorem byKey_trans {γ : Type} (a b c : Text × γ) (hab : byKey a b = true)
    (hbc : byKey b c = true) : byKey a c = true := by
  simp only [byKey, Bool.not_eq_true', decide_eq_false_iff_not] at hab hbc ⊢
  exact List.le_trans hab hbc

theorem byKey_total {γ : Type} (a b : Text × γ) : (byKey a b || byKey b a) = true := by
  simp only [byKey, Bool.or_eq_true, Bool.not_eq_true', decide_eq_false_iff_not]
  exact List.le_total a.1 b.1

/-- Lists with the same entries, and one entry for a key, are the same once sorted. -/
theorem sorted_eq_of_perm {γ : Type} {xs ys : List (Text × γ)} (h : xs.Perm ys)
    (hkeys : (xs.map Prod.fst).Nodup) : xs.mergeSort byKey = ys.mergeSort byKey := by
  have hxs := List.mergeSort_perm xs byKey
  have hys := List.mergeSort_perm ys byKey
  refine List.Perm.eq_of_pairwise ?_ (List.pairwise_mergeSort byKey_trans byKey_total xs)
    (List.pairwise_mergeSort byKey_trans byKey_total ys) (hxs.trans (h.trans hys.symm))
  intro a b ha hb hab hba
  simp only [byKey, Bool.not_eq_true', decide_eq_false_iff_not] at hab hba
  -- Neither key is before the other, so they are one key, and that has one entry.
  have hkey : a.1 = b.1 := List.le_antisymm hab hba
  exact List.inj_on_of_nodup_map hkeys (hxs.mem_iff.mp ha)
    (h.mem_iff.mpr (hys.mem_iff.mp hb)) hkey

theorem map_eq_of_forall₂ {β γ δ : Type*} {R : β → γ → Prop} {f : β → δ} {g : γ → δ}
    {xs : List β} {ys : List γ} (h : List.Forall₂ R xs ys)
    (heq : ∀ x ∈ xs, ∀ y ∈ ys, R x y → f x = g y) : xs.map f = ys.map g := by
  induction h with
  | nil => rfl
  | cons hxy _ ih =>
      rw [List.map_cons, List.map_cons, heq _ List.mem_cons_self _ List.mem_cons_self hxy,
        ih fun x hx y hy => heq x (List.mem_cons_of_mem _ hx) y (List.mem_cons_of_mem _ hy)]

/-- The entries with their values written, in the order of their keys. -/
theorem sorted_written (entries : List (Text × Value N)) :
    (sorted entries).map (entryText numbers) =
      ((entries.map fun e => (e.1, text numbers e.2)).mergeSort byKey).map
        fun e => stringify e.1 ++ colon :: e.2 := by
  rw [sorted, ← @List.map_mergeSort _ _ (fun a b => !decide (b.1 < a.1)) byKey
    (fun e : Text × Value N => (e.1, text numbers e.2)) entries fun _ _ _ _ => rfl, List.map_map]
  rfl

/-- What is equal up to the order of keys is written the same. -/
theorem text_of_same {a : Value N} (ha : Plain numbers a) :
    ∀ {b : Value N}, Plain numbers b → Same a b → text numbers a = text numbers b := by
  induction ha with
  | null =>
      intro b _ hsame
      cases hsame
      rfl
  | boolean value =>
      intro b _ hsame
      cases hsame
      rfl
  | number _ _ =>
      intro b _ hsame
      cases hsame
      rfl
  | string value =>
      intro b _ hsame
      cases hsame
      rfl
  | array h ih =>
      intro b hb hsame
      cases hsame with
      | array hvalues =>
          cases hb with
          | array hb =>
              rw [text_array h, text_array hb, map_eq_of_forall₂ hvalues
                fun value hmem value' hmem' hsame => ih value hmem (hb value' hmem') hsame]
  | object hkeys h ih =>
      rename_i entries
      intro b hb hsame
      cases hsame with
      | @object _ moved entries' hmoved hnames hvalues =>
          cases hb with
          | object _ hb =>
              -- The moved entries have the names in the order of the other object, so the written
              -- pairs agree.
              have hwritten : (moved.map Prod.snd).map (text numbers) =
                  (entries'.map Prod.snd).map (text numbers) := by
                refine map_eq_of_forall₂ hvalues fun value hmem value' hmem' hsame => ?_
                rcases List.mem_map.mp hmem with ⟨entry, hentry, rfl⟩
                rcases List.mem_map.mp hmem' with ⟨entry', hentry', rfl⟩
                exact ih entry (hmoved.mem_iff.mpr hentry) (hb entry' hentry') hsame
              have hpairs : moved.map (fun e => (e.1, text numbers e.2)) =
                  entries'.map fun e => (e.1, text numbers e.2) := by
                have hzip : ∀ l : List (Text × Value N), l.map (fun e => (e.1, text numbers e.2)) =
                    (l.map Prod.fst).zip ((l.map Prod.snd).map (text numbers)) := by
                  intro l
                  rw [List.map_map, List.zip_map']
                  rfl
                rw [hzip, hzip, hnames, hwritten]
              have hperm := hmoved.map fun e => (e.1, text numbers e.2)
              rw [hpairs] at hperm
              rw [text_object h, text_object hb, sorted_written, sorted_written,
                sorted_eq_of_perm hperm (by rw [List.map_map]; exact hkeys)]

/-! ### The text is read in one way -/

/-- What kind of value a text of the format begins. -/
inductive Kind where
  | null
  | yes
  | no
  | number
  | string
  | array
  | object
  | none
  deriving DecidableEq

def kindOf (u : UInt16) : Kind :=
  if u = 0x6E then .null
  else if u = 0x74 then .yes
  else if u = 0x66 then .no
  else if isNumeral u then .number
  else if u = quote then .string
  else if u = openBracket then .array
  else if u = openBrace then .object
  else .none

def Value.kind : Value N → Kind
  | .null => .null
  | .boolean value => if value then .yes else .no
  | .number _ => .number
  | .string _ => .string
  | .array _ => .array
  | .object _ => .object
  | .other _ => .none

theorem kindOf_numeral {u : UInt16} (h : isNumeral u = true) : kindOf u = .number := by
  have hne : ∀ v : UInt16, isNumeral v = false → u ≠ v := by
    rintro v hv rfl
    rw [hv] at h
    cases h
  rw [kindOf, if_neg (hne _ (by decide)), if_neg (hne _ (by decide)), if_neg (hne _ (by decide)),
    if_pos h]

/-- The first unit of a text tells what kind of value it is. -/
theorem head_text (hnumbers : numbers.Lawful) {value : Value N} (h : Plain numbers value) :
    ∃ u, (text numbers value).head? = some u ∧ kindOf u = value.kind := by
  cases h with
  | null =>
      rw [text_null]
      exact ⟨0x6E, by decide, rfl⟩
  | boolean value =>
      rw [text_boolean]
      cases value with
      | true => exact ⟨0x74, by decide, rfl⟩
      | false => exact ⟨0x66, by decide, rfl⟩
  | @number value hfinite _ =>
      rw [text_number hfinite]
      rcases hnumbers.grammar value hfinite with ⟨hne, hnumeral⟩
      rcases List.exists_cons_of_ne_nil hne with ⟨u, rest, hcons⟩
      refine ⟨u, by rw [hcons]; rfl, kindOf_numeral (hnumeral u ?_)⟩
      rw [hcons]
      exact List.mem_cons_self
  | string value =>
      rw [text_string]
      exact ⟨quote, rfl, rfl⟩
  | array h =>
      rw [text_array h]
      exact ⟨openBracket, rfl, rfl⟩
  | object _ h =>
      rw [text_object h]
      exact ⟨openBrace, rfl, rfl⟩

theorem kind_eq (hnumbers : numbers.Lawful) {a b : Value N} (ha : Plain numbers a)
    (hb : Plain numbers b) {r r' : Text} (h : text numbers a ++ r = text numbers b ++ r') :
    a.kind = b.kind := by
  rcases head_text hnumbers ha with ⟨u, hu, hkind⟩
  rcases head_text hnumbers hb with ⟨v, hv, hkind'⟩
  have hheads := congrArg List.head? h
  rw [List.head?_append, List.head?_append, hu, hv, Option.some_or, Option.some_or,
    Option.some.injEq] at hheads
  rw [← hkind, hheads, hkind']

/-- What a number ends at. -/
def stop (u : UInt16) : Bool := !isNumeral u

/-- Entries that are equal up to the order of keys, in some order. -/
theorem same_of_sorted {entries entries' : List (Text × Value N)}
    (h : List.Forall₂ (fun a b => a.1 = b.1 ∧ Same a.2 b.2) (sorted entries) (sorted entries')) :
    Same (.object entries) (.object entries') := by
  have hcomp : Relation.Comp (List.Forall₂ fun a b : Text × Value N => a.1 = b.1 ∧ Same a.2 b.2)
      List.Perm (sorted entries) entries' :=
    ⟨sorted entries', h, List.mergeSort_perm entries' _⟩
  rw [List.forall₂_comp_perm_eq_perm_comp_forall₂] at hcomp
  rcases hcomp with ⟨moved, hmoved, hpairs⟩
  have hperm : entries.Perm moved := (List.mergeSort_perm entries _).symm.trans hmoved
  refine .object hperm (map_eq_of_forall₂ hpairs fun _ _ _ _ hpair => hpair.1) ?_
  rw [List.forall₂_map_left_iff, List.forall₂_map_right_iff]
  exact hpairs.imp fun _ _ hpair => hpair.2

/-- What is written is read in one way: a value, up to the order of keys, and what comes
    after it. -/
theorem text_unique (hnumbers : numbers.Lawful) {a : Value N} (ha : Plain numbers a) :
    ∀ {b : Value N}, Plain numbers b → ∀ {r r' : Text}, Stops stop r → Stops stop r' →
      text numbers a ++ r = text numbers b ++ r' → Same a b ∧ r = r' := by
  -- The first letter shows the kind of a value, and each kind shows where it ends.
  induction ha with
  | null =>
      intro b hb r r' _ _ h
      have hkind := kind_eq hnumbers .null hb h
      cases hb with
      | null => exact ⟨.null, List.append_cancel_left h⟩
      | boolean value => cases value <;> cases hkind
      | number | string | array | object => cases hkind
  | boolean value =>
      intro b hb r r' _ _ h
      have hkind := kind_eq hnumbers (.boolean value) hb h
      cases hb with
      | boolean value' =>
          have hvalue : value = value' := by
            cases value <;> cases value' <;> first | rfl | cases hkind
          subst hvalue
          exact ⟨.boolean value, List.append_cancel_left h⟩
      | null | number | string | array | object => cases value <;> cases hkind
  | @number value hfinite hzero =>
      intro b hb r r' hr hr' h
      have hkind := kind_eq hnumbers (.number hfinite hzero) hb h
      cases hb with
      | @number value' hfinite' hzero' =>
          -- A number ends where its letters do.
          have hstop : ∀ n, numbers.isFinite n = true →
              ∀ u ∈ numbers.stringify n, stop u = false := fun n hn u hu => by
            rw [stop, (hnumbers.grammar n hn).2 u hu, Bool.not_true]
          rw [text_number hfinite, text_number hfinite'] at h
          rcases append_unique_of_all (hstop value hfinite) (hstop value' hfinite') hr hr' h
            with ⟨hsame, hrest⟩
          rw [hnumbers.injective value value' hfinite hfinite' hzero hzero' hsame]
          exact ⟨.number value', hrest⟩
      | boolean value => cases value <;> cases hkind
      | null | string | array | object => cases hkind
  | string value =>
      intro b hb r r' _ _ h
      have hkind := kind_eq hnumbers (.string value) hb h
      cases hb with
      | string value' =>
          rw [text_string, text_string] at h
          rcases stringify_unique h with ⟨rfl, hrest⟩
          exact ⟨.string value, hrest⟩
      | boolean value => cases value <;> cases hkind
      | null | number | array | object => cases hkind
  | array hvalues ih =>
      intro b hb r r' _ _ h
      have hkind := kind_eq hnumbers (.array hvalues) hb h
      cases hb with
      | array hvalues' =>
          rw [text_array hvalues, text_array hvalues'] at h
          simp only [List.cons_append, List.append_assoc, List.nil_append, List.cons.injEq,
            true_and] at h
          -- No value begins as an array ends, so the elements are as many on either side.
          have hopens : ∀ v, Plain numbers v →
              ∃ u, (text numbers v).head? = some u ∧ u ≠ closeBracket := by
            intro v hv
            rcases head_text hnumbers hv with ⟨u, hu, hkind⟩
            refine ⟨u, hu, ?_⟩
            rintro rfl
            cases hv with
            | boolean value => cases value <;> cases hkind
            | null | number | string | array | object => cases hkind
          rcases joined_unique (by decide) (by decide) (by decide)
            (fun v hv => hopens v (hvalues v hv)) (fun v hv => hopens v (hvalues' v hv))
            (fun v hv v' hv' r r' hr hr' => ih v hv (hvalues' v' hv') hr hr') h
            with ⟨hall, hrest⟩
          exact ⟨.array hall, hrest⟩
      | boolean value => cases value <;> cases hkind
      | null | number | string | object => cases hkind
  | @object entries hkeys hentries ih =>
      intro b hb r r' _ _ h
      have hkind := kind_eq hnumbers (.object hkeys hentries) hb h
      cases hb with
      | @object entries' hkeys' hentries' =>
          rw [text_object hentries, text_object hentries'] at h
          simp only [List.cons_append, List.append_assoc, List.nil_append, List.cons.injEq,
            true_and] at h
          have hopens : ∀ e : Text × Value N,
              ∃ u, (entryText numbers e).head? = some u ∧ u ≠ closeBrace :=
            fun e => ⟨quote, rfl, by decide⟩
          -- An entry is its key, which ends at a quote, and its value.
          have hread : ∀ e ∈ sorted entries, ∀ e' ∈ sorted entries', ∀ s s', Stops stop s → Stops stop s' →
              entryText numbers e ++ s = entryText numbers e' ++ s' →
                (e.1 = e'.1 ∧ Same e.2 e'.2) ∧ s = s' := by
            intro e he e' he' s s' hs hs' hread
            unfold entryText at hread
            rw [List.append_assoc, List.append_assoc] at hread
            rcases stringify_unique hread with ⟨hkey, hvalue⟩
            rw [List.cons_append, List.cons_append, List.cons.injEq] at hvalue
            rcases ih e (mem_sorted.mp he) (hentries' e' (mem_sorted.mp he')) hs hs' hvalue.2
              with ⟨hsame, hrest⟩
            exact ⟨⟨hkey, hsame⟩, hrest⟩
          rcases joined_unique (by decide) (by decide) (by decide) (fun e _ => hopens e)
            (fun e _ => hopens e) hread h with ⟨hall, hrest⟩
          exact ⟨same_of_sorted hall, hrest⟩
      | boolean value => cases value <;> cases hkind
      | null | number | string | array => cases hkind

/-! ### The hash -/

theorem wellFormed_joined {texts : List Text}
    (h : ∀ t ∈ texts, ∀ rest, wellFormed (t ++ rest) = wellFormed rest) :
    ∀ rest, wellFormed ([comma].intercalate texts ++ rest) = wellFormed rest := by
  induction texts with
  | nil => exact fun rest => rfl
  | cons t ts ih =>
      intro rest
      have ht := h t List.mem_cons_self
      cases ts with
      | nil => rw [List.intercalate_singleton, ht]
      | cons t' ts =>
          rw [List.intercalate_cons_cons, List.append_assoc, List.append_assoc, ht,
            List.singleton_append, wellFormed_cons_of_basic (by decide),
            ih fun u hu => h u (List.mem_cons_of_mem t hu)]

/-- What is written has no lone surrogate, so its bytes determine it. -/
theorem wellFormed_text (hnumbers : numbers.Lawful) {value : Value N} (h : Plain numbers value) :
    ∀ rest, wellFormed (text numbers value ++ rest) = wellFormed rest := by
  -- A text without surrogates leaves what follows as it was.
  have hletters : ∀ (w : Text), (∀ u ∈ w, u.toNat < 0xD800) → ∀ rest,
      wellFormed (w ++ rest) = wellFormed rest := fun w hw rest =>
    wellFormed_append_of_basic (fun u hu => basic_of_lt (hw u hu)) rest
  induction h with
  | null =>
      rw [text_null]
      exact hletters _ (by decide)
  | boolean value =>
      rw [text_boolean]
      cases value with
      | true => exact hletters _ (by decide)
      | false => exact hletters _ (by decide)
  | @number value hfinite _ =>
      rw [text_number hfinite]
      refine hletters _ fun u hu => ?_
      have hnumeral := (hnumbers.grammar value hfinite).2 u hu
      simp only [isNumeral, Bool.or_eq_true, Bool.and_eq_true, decide_eq_true_eq,
        UInt16.le_iff_toNat_le] at hnumeral
      rcases hnumeral with (((⟨_, hle⟩ | rfl) | rfl) | rfl) | rfl
      · exact Nat.lt_of_le_of_lt hle (by decide)
      · decide
      · decide
      · decide
      · decide
  | string value =>
      rw [text_string]
      exact wellFormed_stringify_append value
  | array hvalues ih =>
      intro rest
      rw [text_array hvalues, List.cons_append, wellFormed_cons_of_basic (by decide),
        List.append_assoc, wellFormed_joined, List.singleton_append,
        wellFormed_cons_of_basic (by decide)]
      intro t ht
      rcases List.mem_map.mp ht with ⟨value, hmem, rfl⟩
      exact ih value hmem
  | object _ hentries ih =>
      intro rest
      rw [text_object hentries, List.cons_append, wellFormed_cons_of_basic (by decide),
        List.append_assoc, wellFormed_joined, List.singleton_append,
        wellFormed_cons_of_basic (by decide)]
      intro t ht rest
      rcases List.mem_map.mp ht with ⟨entry, hmem, rfl⟩
      rw [entryText, List.append_assoc, wellFormed_stringify_append, List.cons_append,
        wellFormed_cons_of_basic (by decide), ih entry (mem_sorted.mp hmem)]

/-- The text is a canonical form, and a registration hash commits to one payload as far as
    the digest tells the two texts apart. -/
theorem canonicalJson_iff_same (numbers : Numbers N) (hnumbers : numbers.Lawful)
    (sha256Hex : List UInt8 → Text) {a b : Value N} (ha : Plain numbers a)
    (hb : Plain numbers b) :
    (∃ written, canonicalJson numbers a = .ok written) ∧
      (canonicalJson numbers a = canonicalJson numbers b ↔ Same a b) ∧
      ((∀ s t, canonicalJson numbers a = .ok s → canonicalJson numbers b = .ok t →
          sha256Hex (toUtf8 s) = sha256Hex (toUtf8 t) → toUtf8 s = toUtf8 t) →
        (registrationHash numbers sha256Hex a = registrationHash numbers sha256Hex b ↔
          Same a b)) := by
  have hwritten := canonicalJson_plain ha
  have hwritten' := canonicalJson_plain hb
  have hsame : text numbers a = text numbers b → Same a b := fun h =>
    (text_unique hnumbers ha hb (stops_nil stop) (stops_nil stop) (congrArg (· ++ []) h)).1
  refine ⟨⟨_, hwritten⟩, ⟨?_, ?_⟩, ?_⟩
  · intro h
    rw [hwritten, hwritten', Except.ok.injEq] at h
    exact hsame h
  · intro h
    rw [hwritten, hwritten', text_of_same ha hb h]
  · intro hcollision
    have hhash : ∀ (v : Value N), canonicalJson numbers v = .ok (text numbers v) →
        registrationHash numbers sha256Hex v = .ok (sha256Hex (toUtf8 (text numbers v))) := by
      intro v hv
      rw [registrationHash, hv]
      rfl
    rw [hhash a hwritten, hhash b hwritten', Except.ok.injEq]
    constructor
    · intro h
      have hbytes := hcollision _ _ hwritten hwritten' h
      have hwellFormed : ∀ (v : Value N), Plain numbers v → wellFormed (text numbers v) = true := by
        intro v hv
        have htext := wellFormed_text hnumbers hv []
        rw [List.append_nil] at htext
        exact htext
      exact hsame (toUtf8_injective (hwellFormed a ha) (hwellFormed b hb) hbytes)
    · intro h
      rw [text_of_same ha hb h]

namespace Sample

/-- Whole numbers in decimal. -/
def decimals : Numbers Nat where
  isFinite _ := true
  isNegativeZero _ := false
  stringify n := ofString (toString n)

theorem decimals_lawful : decimals.Lawful where
  grammar n _ := by
    have hdigits : (toString n).toList = Nat.toDigits 10 n := Nat.toList_repr
    refine ⟨?_, fun u hu => ?_⟩
    · intro hempty
      have hscalars := scalars_ofString (toString n)
      rw [show ofString (toString n) = [] from hempty, hdigits] at hscalars
      exact Nat.toDigits_ne_nil hscalars.symm
    · rcases List.mem_flatMap.mp hu with ⟨c, hc, hunit⟩
      rw [hdigits] at hc
      have hdigit := Nat.isDigit_of_mem_toDigits (by decide) (by decide) hc
      have hrange : 48 ≤ c.toNat ∧ c.toNat ≤ 57 := by
        simp only [Char.isDigit, Bool.and_eq_true, decide_eq_true_eq] at hdigit
        exact ⟨hdigit.1, hdigit.2⟩
      rw [units, if_pos (by omega), List.mem_singleton] at hunit
      have hval : (UInt16.ofNat c.toNat).toNat = c.toNat := by
        rw [UInt16.toNat_ofNat']
        exact Nat.mod_eq_of_lt (by omega)
      rw [hunit, isNumeral]
      simp only [Bool.or_eq_true, Bool.and_eq_true, decide_eq_true_eq, UInt16.le_iff_toNat_le, hval]
      exact .inl (.inl (.inl (.inl hrange)))
  injective _ _ _ _ _ _ h := ofString_toString_injective h

def flags : Text × Value Nat := (ofString "a", .array [.boolean true])

def count : Text × Value Nat := (ofString "b", .number 1)

theorem plain_payload {entries : List (Text × Value Nat)} (h : entries.Perm [flags, count]) :
    Plain decimals (.object entries) := by
  refine .object ((h.map Prod.fst).nodup_iff.mpr (by decide)) fun entry hmem => ?_
  rcases List.mem_cons.mp (h.mem_iff.mp hmem) with rfl | hmem
  · refine .array fun value hvalue => ?_
    rw [List.mem_singleton.mp hvalue]
    exact .boolean true
  · rw [List.mem_singleton.mp hmem]
    exact .number rfl rfl

/-- The digest of the one text there is. -/
def sha256Hex (_ : List UInt8) : Text :=
  ofString "708747538ba81fd60b5aac8c646370de5e24abf70ab1872f67458a5a4f3af05d"

end Sample

/-- A payload whose keys come in another order is the same payload. -/
theorem canonicalJson_iff_same_swapped :
    canonicalJson Sample.decimals (.object [Sample.flags, Sample.count]) =
        canonicalJson Sample.decimals (.object [Sample.count, Sample.flags]) ∧
      registrationHash Sample.decimals Sample.sha256Hex (.object [Sample.flags, Sample.count]) =
        registrationHash Sample.decimals Sample.sha256Hex
          (.object [Sample.count, Sample.flags]) := by
  have hplain := Sample.plain_payload (List.Perm.refl [Sample.flags, Sample.count])
  have hplain' := Sample.plain_payload (List.Perm.swap Sample.flags Sample.count [])
  have hsame : Same (.object [Sample.flags, Sample.count])
      (.object [Sample.count, Sample.flags]) := by
    refine .object (List.Perm.swap Sample.count Sample.flags []) rfl ?_
    exact .cons (.number 1) (.cons (.array (.cons (.boolean true) .nil)) .nil)
  rcases canonicalJson_iff_same Sample.decimals Sample.decimals_lawful Sample.sha256Hex hplain
    hplain' with ⟨_, htext, hhash⟩
  refine ⟨htext.mpr hsame, (hhash fun s t hs ht _ => ?_).mpr hsame⟩
  rw [htext.mpr hsame, ht] at hs
  rw [Except.ok.inj hs]

end CanonicalJson

end CopilotFleet
