import Mathlib.Data.List.Basic

/-!
# UTF-16 Strings and their UTF-8 Bytes

A JavaScript string is a sequence of 16-bit code units with no further
structure: a surrogate may stand alone. Every encoder that turns one into
UTF-8 has to decide what such a lone surrogate becomes, and the platform's
answer is U+FFFD. This file carries that decision once, so that a round trip
through bytes is stated for every string and not only for the strings a Lean
`String` can hold.

`scalars` reads the code units as Unicode scalar values, `units` writes them
back, and `toWellFormed` is the composite. It is the identity exactly on the
strings without a lone surrogate, which is what `toWellFormed_eq` uses.

## Main definitions

* `Text`: A string as its code units.
* `scalars`: The scalar values of a string.
* `units`: The code units of a scalar value.
* `ofString`: A literal as its code units.
* `isSpace`: What counts as white space.
* `toWellFormed`: A string with each lone surrogate replaced.
* `wellFormed`: No lone surrogate occurs.
* `toUtf8`: The bytes of a string.
* `fromUtf8`: The string some bytes decode to.

## Theorems

* `fromUtf8_toUtf8`: Decoding the bytes of a string gives its well-formed form.
* `toWellFormed_eq`: A well-formed string is its own well-formed form.
* `fromUtf8_toUtf8_of_wellFormed`: A well-formed string survives its bytes.
* `toUtf8_injective`: Well-formed strings of the same bytes are the same.
* `wellFormed_ofString`, `ofString_injective`: A string of characters is well-formed.
-/

namespace CopilotFleet

namespace Utf16

/-- A string as the platform keeps it: code units, surrogates paired or not. -/
abbrev Text := List UInt16

instance : LawfulBEq Text := inferInstance

/-- The first half of a surrogate pair. -/
def isHigh (u : UInt16) : Bool := 0xD800 ≤ u.toNat && u.toNat ≤ 0xDBFF

/-- The second half of a surrogate pair. -/
def isLow (u : UInt16) : Bool := 0xDC00 ≤ u.toNat && u.toNat ≤ 0xDFFF

/-- The scalar value of an unpaired unit; a lone surrogate reads as U+FFFD. -/
def single (u : UInt16) : Char :=
  if isHigh u || isLow u then Char.ofNat 0xFFFD else Char.ofNat u.toNat

/-- The scalar value of a surrogate pair. -/
def pair (u v : UInt16) : Char :=
  Char.ofNat (0x10000 + (u.toNat - 0xD800) * 0x400 + (v.toNat - 0xDC00))

/-- The scalar values of a string, left to right. -/
def scalars : Text → List Char
  | [] => []
  | [u] => [single u]
  | u :: v :: rest =>
      if isHigh u && isLow v then pair u v :: scalars rest
      else single u :: scalars (v :: rest)

/-- The code units of a scalar value. -/
def units (c : Char) : Text :=
  if c.toNat < 0x10000 then [UInt16.ofNat c.toNat]
  else [UInt16.ofNat (0xD800 + (c.toNat - 0x10000) / 0x400),
    UInt16.ofNat (0xDC00 + (c.toNat - 0x10000) % 0x400)]

/-- What is asked of each unit of a string is decided along the string, not over all units. -/
instance {p : UInt16 → Prop} [DecidablePred p] (s : Text) : Decidable (∀ u ∈ s, p u) :=
  List.decidableBAll p s

/-- A literal of the source as its code units. -/
def ofString (s : String) : Text := s.toList.flatMap units

/-- A unit that is no letter of a literal is not a unit of it. The literal is read as its
    letters, so that it is decided without its bytes. -/
theorem not_mem_ofString {u : UInt16} (hu : u.toNat < 0xD800) {letters : List Char}
    (h : u.toNat ∉ letters.map Char.toNat) : u ∉ ofString (String.ofList letters) := by
  intro hmem
  rw [ofString, String.toList_ofList] at hmem
  rcases List.mem_flatMap.mp hmem with ⟨d, hd, hunit⟩
  have hval : ∀ n, n < 65536 → (UInt16.ofNat n).toNat = n := fun n hn => by
    rw [UInt16.toNat_ofNat']
    exact Nat.mod_eq_of_lt hn
  have hbound : d.toNat < 0x110000 := by
    rcases d.valid with h | h
    · exact Nat.lt_trans h (by decide)
    · exact h.2
  unfold units at hunit
  split at hunit
  · rename_i hlow
    have heq := congrArg UInt16.toNat (List.mem_singleton.mp hunit)
    rw [hval _ hlow] at heq
    exact h (heq ▸ List.mem_map_of_mem hd)
  · -- A surrogate is beyond every letter of the basic plane.
    rcases List.mem_cons.mp hunit with hunit | hunit
    · have heq := congrArg UInt16.toNat hunit
      rw [hval _ (by omega)] at heq
      omega
    · have heq := congrArg UInt16.toNat (List.mem_singleton.mp hunit)
      rw [hval _ (by omega)] at heq
      omega

/-- What `\s` matches and `trim` removes. -/
def isSpace (u : UInt16) : Bool :=
  (9 ≤ u && u ≤ 13) || u = 0x20 || u = 0xA0 || u = 0x1680 || (0x2000 ≤ u && u ≤ 0x200A) ||
    u = 0x2028 || u = 0x2029 || u = 0x202F || u = 0x205F || u = 0x3000 || u = 0xFEFF

/-- `String.prototype.toWellFormed`: each lone surrogate replaced by U+FFFD. -/
def toWellFormed (s : Text) : Text := (scalars s).flatMap units

/-- No lone surrogate occurs. -/
def wellFormed : Text → Bool
  | [] => true
  | [u] => !(isHigh u || isLow u)
  | u :: v :: rest =>
      if isHigh u && isLow v then wellFormed rest
      else !(isHigh u || isLow u) && wellFormed (v :: rest)

/-- `Buffer.from(s, "utf8")`. -/
def toUtf8 (s : Text) : List UInt8 := (scalars s).flatMap String.utf8EncodeChar

/-- How many bytes of an undecodable prefix one U+FFFD stands for: the longest
    run that some valid sequence still starts with, and at least one byte. -/
def maximalSubpart : List UInt8 → Nat
  | [] => 0
  | a :: rest =>
      let tail (lo hi : Nat) (b : UInt8) : Bool := lo ≤ b.toNat && b.toNat ≤ hi
      let more (lo hi owed : Nat) : Nat :=
        match rest with
        | b :: c :: _ =>
            if tail lo hi b then if 2 ≤ owed && tail 0x80 0xBF c then 3 else 2 else 1
        | [b] => if tail lo hi b then 2 else 1
        | [] => 1
      if a.toNat = 0xE0 then more 0xA0 0xBF 1
      else if a.toNat = 0xED then more 0x80 0x9F 1
      else if 0xE1 ≤ a.toNat ∧ a.toNat ≤ 0xEF then more 0x80 0xBF 1
      else if a.toNat = 0xF0 then more 0x90 0xBF 2
      else if a.toNat = 0xF4 then more 0x80 0x8F 2
      else if 0xF1 ≤ a.toNat ∧ a.toNat ≤ 0xF3 then more 0x80 0xBF 2
      else 1

/-- Decoding with replacement, one character or one U+FFFD per step. The fuel
    is the byte count, and every step takes at least one byte. -/
def lossy : Nat → List UInt8 → List Char
  | 0, _ => []
  | _ + 1, [] => []
  | fuel + 1, a :: rest =>
      match ByteArray.utf8DecodeChar? (a :: rest).toByteArray 0 with
      | some c => c :: lossy fuel ((a :: rest).drop c.utf8Size)
      | none => Char.ofNat 0xFFFD :: lossy fuel ((a :: rest).drop (maximalSubpart (a :: rest)))

/-- `buffer.toString("utf8")`: valid bytes decode to what they encode, and any
    others to a string with replacements. -/
def fromUtf8 (bytes : List UInt8) : Text := (lossy bytes.length bytes).flatMap units

/-- Decoding takes one encoded character off the front. -/
theorem lossy_encode_cons (c : Char) (rest : List UInt8) (fuel : Nat) :
    lossy (fuel + 1) (String.utf8EncodeChar c ++ rest) = c :: lossy fuel rest := by
  have hdec := List.utf8DecodeChar?_utf8Encode_singleton_append (b := rest.toByteArray) (c := c)
  rw [List.utf8Encode_singleton, ← List.toByteArray_append] at hdec
  have hlen : (String.utf8EncodeChar c).length = c.utf8Size := String.length_utf8EncodeChar c
  have hpos := Char.utf8Size_pos c
  cases hbytes : String.utf8EncodeChar c with
  | nil =>
      rw [hbytes] at hlen
      simp at hlen
      omega
  | cons a tail =>
      rw [hbytes] at hdec hlen
      simp only [List.cons_append] at hdec ⊢
      simp only [lossy, hdec]
      rw [← List.cons_append, List.drop_append_of_le_length (by omega), ← hlen]
      simp

/-- Decoding the bytes of characters gives the characters back. -/
theorem lossy_encode (cs : List Char) :
    ∀ fuel, cs.length ≤ fuel → lossy fuel (cs.flatMap String.utf8EncodeChar) = cs := by
  induction cs with
  | nil =>
      intro fuel _
      cases fuel <;> rfl
  | cons c cs ih =>
      intro fuel hfuel
      cases fuel with
      | zero => simp at hfuel
      | succ k =>
          rw [List.flatMap_cons, lossy_encode_cons, ih k (by simpa using hfuel)]

theorem length_le_encode (cs : List Char) :
    cs.length ≤ (cs.flatMap String.utf8EncodeChar).length := by
  induction cs with
  | nil => simp
  | cons c cs ih =>
      have hpos := Char.utf8Size_pos c
      simp only [List.flatMap_cons, List.length_append, String.length_utf8EncodeChar,
        List.length_cons]
      omega

/-- The bytes of a string decode to its well-formed form, whatever the string. -/
theorem fromUtf8_toUtf8 (s : Text) : fromUtf8 (toUtf8 s) = toWellFormed s := by
  unfold fromUtf8 toUtf8 toWellFormed
  rw [lossy_encode _ _ (length_le_encode _)]

theorem toNat_ofNat (n : Nat) (h : n.isValidChar) : (Char.ofNat n).toNat = n := by
  unfold Char.ofNat
  rw [dif_pos h]
  rfl

/-- A unit that is no surrogate is its own scalar value. -/
theorem units_single (u : UInt16) (h : (isHigh u || isLow u) = false) :
    units (single u) = [u] := by
  have hu : u.toNat < 65536 := u.toNat_lt
  have hvalid : u.toNat.isValidChar := by
    simp only [isHigh, isLow, Bool.or_eq_false_iff, Bool.and_eq_false_iff,
      decide_eq_false_iff_not] at h
    unfold Nat.isValidChar
    omega
  have hsingle : single u = Char.ofNat u.toNat := by
    unfold single
    rw [if_neg (by simp [h])]
  unfold units
  rw [hsingle, toNat_ofNat _ hvalid, if_pos hu]
  simp

/-- A pair of surrogates is the scalar value they spell. -/
theorem units_pair (u v : UInt16) (hu : isHigh u = true) (hv : isLow v = true) :
    units (pair u v) = [u, v] := by
  simp only [isHigh, isLow, Bool.and_eq_true, decide_eq_true_eq] at hu hv
  have hvalid :
      (0x10000 + (u.toNat - 0xD800) * 0x400 + (v.toNat - 0xDC00)).isValidChar := by
    unfold Nat.isValidChar
    omega
  have hnat : (pair u v).toNat =
      0x10000 + (u.toNat - 0xD800) * 0x400 + (v.toNat - 0xDC00) := by
    exact toNat_ofNat _ hvalid
  have hhi : 0xD800 + ((pair u v).toNat - 0x10000) / 0x400 = u.toNat := by omega
  have hlo : 0xDC00 + ((pair u v).toNat - 0x10000) % 0x400 = v.toNat := by omega
  unfold units
  rw [if_neg (by omega), hhi, hlo]
  simp

theorem toWellFormed_eq (s : Text) (h : wellFormed s = true) : toWellFormed s = s := by
  unfold toWellFormed
  induction s using scalars.induct with
  | case1 => rfl
  | case2 u =>
      simp only [wellFormed, Bool.not_eq_true'] at h
      simp [scalars, units_single u h]
  | case3 u v rest hpair ih =>
      rw [wellFormed, if_pos hpair] at h
      rw [Bool.and_eq_true] at hpair
      simp only [scalars, hpair.1, hpair.2, Bool.and_self, if_true, List.flatMap_cons,
        units_pair u v hpair.1 hpair.2, ih h]
      rfl
  | case4 u v rest hpair ih =>
      rw [wellFormed, if_neg hpair, Bool.and_eq_true, Bool.not_eq_true'] at h
      rw [scalars, if_neg hpair, List.flatMap_cons, units_single u h.1, ih h.2]
      rfl

theorem fromUtf8_toUtf8_of_wellFormed (s : Text) (h : wellFormed s = true) :
    fromUtf8 (toUtf8 s) = s := by
  rw [fromUtf8_toUtf8, toWellFormed_eq s h]

/-- Well-formed strings of the same bytes are the same. -/
theorem toUtf8_injective {s t : Text} (hs : wellFormed s = true) (ht : wellFormed t = true)
    (h : toUtf8 s = toUtf8 t) : s = t := by
  rw [← fromUtf8_toUtf8_of_wellFormed s hs, h, fromUtf8_toUtf8_of_wellFormed t ht]

/-! ### Strings of characters -/

/-- The first unit of a character of the basic plane is the character and no surrogate; of
    any other it is the first half of a pair. -/
theorem units_cases (c : Char) :
    (∃ u, units c = [u] ∧ (isHigh u || isLow u) = false ∧ single u = c) ∨
      ∃ u v, units c = [u, v] ∧ (isHigh u && isLow v) = true ∧ pair u v = c := by
  have hvalid := c.valid
  rw [UInt32.isValidChar, Nat.isValidChar] at hvalid
  have hnat : c.val.toNat = c.toNat := rfl
  rw [hnat] at hvalid
  have hval : ∀ n, n < 65536 → (UInt16.ofNat n).toNat = n := fun n hn => by
    rw [UInt16.toNat_ofNat']
    exact Nat.mod_eq_of_lt hn
  by_cases hbasic : c.toNat < 0x10000
  · have hplain : (isHigh (UInt16.ofNat c.toNat) || isLow (UInt16.ofNat c.toNat)) = false := by
      simp only [isHigh, isLow, hval _ hbasic, Bool.or_eq_false_iff, Bool.and_eq_false_iff,
        decide_eq_false_iff_not]
      omega
    refine .inl ⟨UInt16.ofNat c.toNat, if_pos hbasic, hplain, ?_⟩
    rw [single, if_neg (by rw [hplain]; exact Bool.false_ne_true), hval _ hbasic]
    exact Char.ofNat_toNat c
  · refine .inr ⟨_, _, if_neg hbasic, ?_, ?_⟩
    · simp only [isHigh, isLow, Bool.and_eq_true, decide_eq_true_eq]
      rw [hval _ (by omega), hval _ (by omega)]
      omega
    · rw [pair, hval _ (by omega), hval _ (by omega)]
      have hspelled : 0x10000 + (0xD800 + (c.toNat - 0x10000) / 0x400 - 0xD800) * 0x400 +
          (0xDC00 + (c.toNat - 0x10000) % 0x400 - 0xDC00) = c.toNat := by omega
      rw [hspelled]
      exact Char.ofNat_toNat c

theorem scalars_units_append (c : Char) (rest : Text) :
    scalars (units c ++ rest) = c :: scalars rest := by
  rcases units_cases c with ⟨u, hunits, hplain, hsingle⟩ | ⟨u, v, hunits, hpair, hc⟩
  · rw [hunits, ← hsingle]
    rw [Bool.or_eq_false_iff] at hplain
    cases rest with
    | nil => rfl
    | cons v rest =>
        rw [List.singleton_append, scalars, if_neg (by simp [hplain.1])]
  · rw [hunits, ← hc]
    simp only [List.cons_append, List.nil_append]
    rw [scalars, if_pos hpair]

theorem wellFormed_units_append (c : Char) (rest : Text) :
    wellFormed (units c ++ rest) = wellFormed rest := by
  rcases units_cases c with ⟨u, hunits, hplain, _⟩ | ⟨u, v, hunits, hpair, _⟩
  · rw [hunits]
    cases rest with
    | nil => simp [wellFormed, hplain]
    | cons v rest =>
        rw [List.singleton_append, wellFormed, if_neg (by simp [Bool.or_eq_false_iff.mp hplain]),
          hplain, Bool.not_false, Bool.true_and]
  · rw [hunits]
    simp only [List.cons_append, List.nil_append]
    rw [wellFormed, if_pos hpair]

theorem scalars_ofString (s : String) : scalars (ofString s) = s.toList := by
  unfold ofString
  induction s.toList with
  | nil => rfl
  | cons c rest ih => rw [List.flatMap_cons, scalars_units_append, ih]

theorem wellFormed_ofString (s : String) : wellFormed (ofString s) = true := by
  unfold ofString
  induction s.toList with
  | nil => rfl
  | cons c rest ih => rw [List.flatMap_cons, wellFormed_units_append, ih]

theorem ofString_injective {s t : String} (h : ofString s = ofString t) : s = t := by
  rw [String.ext_iff, ← scalars_ofString s, ← scalars_ofString t, h]

/-- A number's decimal digits determine it. -/
theorem ofString_toString_injective {m n : Nat}
    (h : ofString (toString m) = ofString (toString n)) : m = n := by
  have hstring : toString m = toString n := ofString_injective h
  have hdigits : Nat.toDigits 10 m = Nat.toDigits 10 n := by
    rw [← Nat.toList_repr, ← Nat.toList_repr]
    exact congrArg String.toList hstring
  rw [← Nat.ofDigitChars_ten_toDigits (n := m), hdigits, Nat.ofDigitChars_ten_toDigits]

/-! ### Strings without surrogates -/

theorem basic_of_lt {u : UInt16} (h : u.toNat < 0xD800) : (isHigh u || isLow u) = false := by
  simp only [isHigh, isLow, Bool.or_eq_false_iff, Bool.and_eq_false_iff, decide_eq_false_iff_not]
  omega

/-- A text without surrogates in front changes nothing. -/
theorem wellFormed_append_of_basic {w : Text} (h : ∀ u ∈ w, (isHigh u || isLow u) = false)
    (rest : Text) : wellFormed (w ++ rest) = wellFormed rest := by
  induction w with
  | nil => rfl
  | cons u w ih =>
      have hu := h u List.mem_cons_self
      have hrest := ih fun v hv => h v (List.mem_cons_of_mem u hv)
      rw [List.cons_append, ← hrest]
      cases w ++ rest with
      | nil => simp [wellFormed, hu]
      | cons v tail =>
          rw [wellFormed, if_neg (by simp [Bool.or_eq_false_iff.mp hu]), hu, Bool.not_false,
            Bool.true_and]

theorem wellFormed_cons_of_basic {u : UInt16} (h : (isHigh u || isLow u) = false) (rest : Text) :
    wellFormed (u :: rest) = wellFormed rest :=
  @wellFormed_append_of_basic [u] (fun v hv => by rw [List.mem_singleton.mp hv]; exact h) rest

end Utf16

end CopilotFleet
