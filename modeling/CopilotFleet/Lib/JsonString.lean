import CopilotFleet.Lib.Utf16

/-!
# Strings in JSON

How a string is written between quotes, and how it is read back. Quotes,
backslashes and control characters are escaped, and so is a surrogate that
stands alone; everything else is written as it is. Reading takes every escape
the format has, in either case of its hexadecimal digits, and refuses what the
format refuses.

What is written is made of plain units and of escapes (`escape_chunks`), which
is what a pattern for a quoted string relies on.

## Main definitions

* `escape`: What is written between the quotes.
* `stringify`: The quoted string.
* `unescape`: What the text between two quotes stands for.

## Theorems

* `unescape_escape`: Reading gives back what was written.
* `escape_chunks`: What is written consists of plain units and escapes.
* `stringify_unique`: A quoted string is read in one way, whatever comes after it.
* `wellFormed_stringify_append`: What is written has no lone surrogate.
-/

namespace CopilotFleet

namespace JsonString

open Utf16

def quote : UInt16 := 0x22

def backslash : UInt16 := 0x5C

/-- A hexadecimal digit, in lower case. -/
def hexDigit (n : Nat) : UInt16 := UInt16.ofNat (if n < 10 then 0x30 + n else 0x61 + (n - 10))

/-- The four digits of a unit. -/
def hexUnit (u : UInt16) : Text :=
  [hexDigit (u.toNat / 4096), hexDigit (u.toNat / 256 % 16), hexDigit (u.toNat / 16 % 16),
    hexDigit (u.toNat % 16)]

/-- The letter of a short escape. -/
def shortEscape (u : UInt16) : Option UInt16 :=
  if u = 0x08 then some 0x62
  else if u = 0x09 then some 0x74
  else if u = 0x0A then some 0x6E
  else if u = 0x0C then some 0x66
  else if u = 0x0D then some 0x72
  else if u = quote then some quote
  else if u = backslash then some backslash
  else none

/-- A unit that is not part of a surrogate pair. -/
def escapeUnit (u : UInt16) : Text :=
  match shortEscape u with
  | some letter => [backslash, letter]
  | none =>
      if u < 0x20 ∨ isHigh u ∨ isLow u then backslash :: 0x75 :: hexUnit u else [u]

/-- What is written between the quotes. -/
def escape : Text → Text
  | [] => []
  | [u] => escapeUnit u
  | u :: v :: rest =>
      if isHigh u && isLow v then u :: v :: escape rest else escapeUnit u ++ escape (v :: rest)

/-- `JSON.stringify` of a string. -/
def stringify (text : Text) : Text := quote :: (escape text ++ [quote])

/-- The value of a hexadecimal digit. -/
def hexValue (u : UInt16) : Option Nat :=
  if 0x30 ≤ u ∧ u ≤ 0x39 then some (u.toNat - 0x30)
  else if 0x61 ≤ u ∧ u ≤ 0x66 then some (u.toNat - 0x61 + 10)
  else if 0x41 ≤ u ∧ u ≤ 0x46 then some (u.toNat - 0x41 + 10)
  else none

/-- The unit four hexadecimal digits stand for. -/
def hexRead (a b c d : UInt16) : Option UInt16 := do
  let a ← hexValue a
  let b ← hexValue b
  let c ← hexValue c
  let d ← hexValue d
  some (UInt16.ofNat (a * 4096 + b * 256 + c * 16 + d))

/-- What a letter after a backslash stands for, `u` apart. -/
def readEscape (letter : UInt16) : Option UInt16 :=
  if letter = 0x62 then some 0x08
  else if letter = 0x74 then some 0x09
  else if letter = 0x6E then some 0x0A
  else if letter = 0x66 then some 0x0C
  else if letter = 0x72 then some 0x0D
  else if letter = quote ∨ letter = backslash ∨ letter = 0x2F then some letter
  else none

/-- A unit that stands for itself. -/
def plain (u : UInt16) : Bool := u ≠ backslash && u ≠ quote && 0x20 ≤ u

/-- What the text between two quotes stands for, if it is a string of the format. -/
def unescape : Text → Option Text
  | [] => some []
  | u :: rest =>
      if u = backslash then
        match rest with
        | [] => none
        | letter :: rest =>
            if letter = 0x75 then
              match rest with
              | a :: b :: c :: d :: rest =>
                  match hexRead a b c d, unescape rest with
                  | some v, some text => some (v :: text)
                  | _, _ => none
              | _ => none
            else
              match readEscape letter, unescape rest with
              | some v, some text => some (v :: text)
              | _, _ => none
      else if plain u then (unescape rest).map (u :: ·)
      else none

/-! ### Reading what was written -/

theorem hexValue_hexDigit : ∀ n, n < 16 → hexValue (hexDigit n) = some n := by
  decide

theorem hexRead_hexUnit (u : UInt16) :
    hexRead (hexDigit (u.toNat / 4096)) (hexDigit (u.toNat / 256 % 16))
      (hexDigit (u.toNat / 16 % 16)) (hexDigit (u.toNat % 16)) = some u := by
  have hu : u.toNat < 65536 := u.toNat_lt
  have hsum : u.toNat / 4096 * 4096 + u.toNat / 256 % 16 * 256 + u.toNat / 16 % 16 * 16 +
      u.toNat % 16 = u.toNat := by omega
  unfold hexRead
  rw [hexValue_hexDigit _ (by omega), hexValue_hexDigit _ (by omega),
    hexValue_hexDigit _ (by omega), hexValue_hexDigit _ (by omega)]
  simp only [Option.bind_eq_bind, Option.bind_some, hsum]
  rw [UInt16.ofNat_toNat]

theorem unescape_plain {u : UInt16} (hu : plain u = true) (rest : Text) :
    unescape (u :: rest) = (unescape rest).map (u :: ·) := by
  have hne : u ≠ backslash := by
    rintro rfl
    exact absurd hu (by decide)
  rw [unescape.eq_def]
  simp only [hne, if_false, hu, if_true]

theorem readEscape_shortEscape {u letter : UInt16} (h : shortEscape u = some letter) :
    letter ≠ 0x75 ∧ readEscape letter = some u := by
  unfold shortEscape at h
  repeat' split at h
  all_goals first
    | (subst_vars; cases h; decide)
    | cases h

theorem plain_of_escapeUnit {u : UInt16} (hshort : shortEscape u = none)
    (hlow : ¬(u < 0x20 ∨ isHigh u ∨ isLow u)) : plain u = true := by
  have hquote : u ≠ quote := by
    rintro rfl
    exact absurd hshort (by decide)
  have hslash : u ≠ backslash := by
    rintro rfl
    exact absurd hshort (by decide)
  rw [not_or] at hlow
  unfold plain
  simp only [hquote, hslash, ne_eq, not_false_eq_true, decide_true, Bool.and_self, Bool.true_and,
    decide_eq_true_eq]
  exact UInt16.not_lt.mp hlow.1

theorem unescape_escapeUnit (u : UInt16) (rest : Text) :
    unescape (escapeUnit u ++ rest) = (unescape rest).map (u :: ·) := by
  unfold escapeUnit
  cases hshort : shortEscape u with
  | some letter =>
      have hread := readEscape_shortEscape hshort
      simp only [List.cons_append, List.nil_append]
      rw [unescape.eq_def]
      simp only [if_true, hread.1, if_false, hread.2]
      cases unescape rest <;> rfl
  | none =>
      simp only []
      split
      · simp only [hexUnit, List.cons_append, List.nil_append]
        rw [unescape.eq_def]
        simp only [if_true, hexRead_hexUnit]
        cases unescape rest <;> rfl
      · rename_i hlow
        exact unescape_plain (plain_of_escapeUnit hshort hlow) rest

theorem plain_of_surrogate {u : UInt16} (h : isHigh u = true ∨ isLow u = true) :
    plain u = true := by
  have hbig : 0xD800 ≤ u.toNat := by
    unfold isHigh isLow at h
    simp only [Bool.and_eq_true, decide_eq_true_eq] at h
    omega
  have hne : ∀ v : UInt16, v.toNat < 0xD800 → u ≠ v := by
    rintro v hv rfl
    omega
  unfold plain
  simp only [hne backslash (by decide), hne quote (by decide), ne_eq, not_false_eq_true,
    decide_true, Bool.and_self, Bool.true_and, decide_eq_true_eq]
  rw [UInt16.le_iff_toNat_le]
  exact Nat.le_trans (by decide) hbig

/-- Reading gives back what was written. -/
theorem unescape_escape (text : Text) : unescape (escape text) = some text := by
  fun_induction escape text with
  | case1 => rfl
  | case2 u =>
      have h := unescape_escapeUnit u []
      rw [List.append_nil] at h
      exact h
  | case3 u v rest hpair ih =>
      rw [Bool.and_eq_true] at hpair
      rw [unescape_plain (plain_of_surrogate (.inl hpair.1)),
        unescape_plain (plain_of_surrogate (.inr hpair.2)), ih]
      rfl
  | case4 u v rest _ ih => rw [unescape_escapeUnit, ih, Option.map_some]

/-! ### What is written -/

/-- A plain unit, or a backslash and a letter. -/
def Chunk (w : Text) : Prop :=
  (∃ u, w = [u] ∧ plain u = true) ∨
    ∃ letter, w = [backslash, letter] ∧ 0x20 < letter ∧ letter < 0x80

theorem hexDigit_plain : ∀ n, n < 16 → plain (hexDigit n) = true := by
  decide

theorem shortEscape_lt {u letter : UInt16} (h : shortEscape u = some letter) :
    0x20 < letter ∧ letter < 0x80 := by
  unfold shortEscape at h
  repeat' split at h
  all_goals first
    | (cases h; decide)
    | cases h

theorem escapeUnit_chunks (u : UInt16) :
    ∃ ws : List Text, ws.flatten = escapeUnit u ∧ ∀ w ∈ ws, Chunk w := by
  unfold escapeUnit
  cases hshort : shortEscape u with
  | some letter =>
      refine ⟨[[backslash, letter]], rfl, ?_⟩
      intro w hw
      rw [List.mem_singleton.mp hw]
      exact .inr ⟨letter, rfl, shortEscape_lt hshort⟩
  | none =>
      simp only []
      have hu : u.toNat < 65536 := u.toNat_lt
      split
      · refine ⟨[backslash, 0x75] :: (hexUnit u).map fun v => [v], rfl, ?_⟩
        intro w hw
        rcases List.mem_cons.mp hw with rfl | hw
        · exact .inr ⟨0x75, rfl, by decide, by decide⟩
        · rcases List.mem_map.mp hw with ⟨v, hv, rfl⟩
          refine .inl ⟨v, rfl, ?_⟩
          simp only [hexUnit, List.mem_cons, List.not_mem_nil, or_false] at hv
          rcases hv with rfl | rfl | rfl | rfl
          · exact hexDigit_plain _ (by omega)
          · exact hexDigit_plain _ (by omega)
          · exact hexDigit_plain _ (by omega)
          · exact hexDigit_plain _ (by omega)
      · rename_i hlow
        refine ⟨[[u]], rfl, ?_⟩
        intro w hw
        rw [List.mem_singleton.mp hw]
        exact .inl ⟨u, rfl, plain_of_escapeUnit hshort hlow⟩

/-- What is written consists of plain units and escapes. -/
theorem escape_chunks (text : Text) :
    ∃ ws : List Text, ws.flatten = escape text ∧ ∀ w ∈ ws, Chunk w := by
  fun_induction escape text with
  | case1 => exact ⟨[], rfl, by simp⟩
  | case2 u => exact escapeUnit_chunks u
  | case3 u v rest hpair ih =>
      rcases ih with ⟨ws, hws, hchunks⟩
      rw [Bool.and_eq_true] at hpair
      refine ⟨[u] :: [v] :: ws, by simp [hws], ?_⟩
      have hsurrogate : ∀ x : UInt16, isHigh x = true ∨ isLow x = true → Chunk [x] :=
        fun x hx => .inl ⟨x, rfl, plain_of_surrogate hx⟩
      intro w hw
      rcases List.mem_cons.mp hw with rfl | hw
      · exact hsurrogate u (.inl hpair.1)
      · rcases List.mem_cons.mp hw with rfl | hw
        · exact hsurrogate v (.inr hpair.2)
        · exact hchunks w hw
  | case4 u v rest _ ih =>
      rcases ih with ⟨ws, hws, hchunks⟩
      rcases escapeUnit_chunks u with ⟨ws', hws', hchunks'⟩
      refine ⟨ws' ++ ws, by rw [List.flatten_append, hws, hws'], ?_⟩
      intro w hw
      rcases List.mem_append.mp hw with hw | hw
      · exact hchunks' w hw
      · exact hchunks w hw

/-- No control character is written. -/
theorem escape_printable {text : Text} {u : UInt16} (hu : u ∈ escape text) : 0x20 ≤ u := by
  rcases escape_chunks text with ⟨ws, hws, hchunks⟩
  rw [← hws] at hu
  rcases List.mem_flatten.mp hu with ⟨w, hw, hmem⟩
  rcases hchunks w hw with ⟨v, rfl, hv⟩ | ⟨letter, rfl, hlow, -⟩
  · rw [List.mem_singleton.mp hmem]
    simp only [plain, Bool.and_eq_true, decide_eq_true_eq] at hv
    exact hv.2
  · rcases List.mem_cons.mp hmem with rfl | hmem
    · decide
    · rw [List.mem_singleton.mp hmem]
      exact UInt16.le_of_lt hlow

/-- What is written between two quotes ends at the second. -/
theorem chunks_unique {ws ws' : List Text} (hws : ∀ w ∈ ws, Chunk w) (hws' : ∀ w ∈ ws', Chunk w)
    {r r' : Text} (h : ws.flatten ++ quote :: r = ws'.flatten ++ quote :: r') :
    ws.flatten = ws'.flatten ∧ r = r' := by
  have hquote : ¬plain quote = true := by decide
  have hslash : ¬plain backslash = true := by decide
  -- A chunk does not begin with a quote.
  have hends : ∀ (w rest s s' : Text), Chunk w → quote :: s ≠ w ++ rest ++ s' := by
    rintro w rest s s' (⟨u, rfl, hu⟩ | ⟨letter, rfl, _, _⟩) heq
    · rw [List.singleton_append, List.cons_append, List.cons.injEq] at heq
      exact hquote (heq.1 ▸ hu)
    · rw [List.cons_append, List.cons_append, List.cons.injEq] at heq
      exact absurd heq.1 (by decide)
  induction ws generalizing ws' with
  | nil =>
      cases ws' with
      | nil =>
          rw [List.flatten_nil, List.nil_append, List.nil_append, List.cons.injEq] at h
          exact ⟨rfl, h.2⟩
      | cons w' ws' => exact absurd h (hends w' _ _ _ (hws' w' List.mem_cons_self))
  | cons w ws ih =>
      cases ws' with
      | nil => exact absurd h.symm (hends w _ _ _ (hws w List.mem_cons_self))
      | cons w' ws' =>
          have hw := hws w List.mem_cons_self
          have hw' := hws' w' List.mem_cons_self
          rw [List.flatten_cons, List.flatten_cons, List.append_assoc, List.append_assoc] at h
          have hsame : w = w' ∧ ws.flatten ++ quote :: r = ws'.flatten ++ quote :: r' := by
            rcases hw with ⟨u, rfl, hu⟩ | ⟨letter, rfl, _, _⟩
            · rcases hw' with ⟨u', rfl, _⟩ | ⟨letter', rfl, _, _⟩
              · rw [List.singleton_append, List.singleton_append, List.cons.injEq] at h
                exact ⟨by rw [h.1], h.2⟩
              · rw [List.singleton_append, List.cons_append, List.cons.injEq] at h
                exact absurd (h.1 ▸ hu) hslash
            · rcases hw' with ⟨u', rfl, hu'⟩ | ⟨letter', rfl, _, _⟩
              · rw [List.singleton_append, List.cons_append, List.cons.injEq] at h
                exact absurd (h.1 ▸ hu') hslash
              · simp only [List.cons_append, List.nil_append, List.cons.injEq, true_and] at h
                exact ⟨by rw [h.1], h.2⟩
          rcases hsame with ⟨rfl, hrest⟩
          rcases ih (fun v hv => hws v (List.mem_cons_of_mem w hv))
            (fun v hv => hws' v (List.mem_cons_of_mem w hv)) hrest with ⟨hflat, hr⟩
          exact ⟨by rw [List.flatten_cons, List.flatten_cons, hflat], hr⟩

/-- A quoted string is read in one way, whatever comes after it. -/
theorem stringify_unique {s t r r' : Text} (h : stringify s ++ r = stringify t ++ r') :
    s = t ∧ r = r' := by
  rcases escape_chunks s with ⟨ws, hws, hchunks⟩
  rcases escape_chunks t with ⟨ws', hws', hchunks'⟩
  simp only [stringify, List.cons_append, List.append_assoc, List.nil_append, List.cons.injEq,
    true_and] at h
  rw [← hws, ← hws'] at h
  rcases chunks_unique hchunks hchunks' h with ⟨hescape, hr⟩
  rw [hws, hws'] at hescape
  refine ⟨?_, hr⟩
  rw [← Option.some.injEq, ← unescape_escape s, hescape, unescape_escape]

theorem hexDigit_basic : ∀ n, n < 16 → (isHigh (hexDigit n) || isLow (hexDigit n)) = false := by
  decide

/-- What is written has no lone surrogate, whatever the string has. -/
theorem wellFormed_escape_append (text rest : Text) :
    wellFormed (escape text ++ rest) = wellFormed rest := by
  have hunit : ∀ u rest, wellFormed (escapeUnit u ++ rest) = wellFormed rest := by
    intro u rest
    refine wellFormed_append_of_basic (fun v hv => ?_) rest
    unfold escapeUnit at hv
    cases hshort : shortEscape u with
    | some letter =>
        rw [hshort] at hv
        have hlow := (shortEscape_lt hshort).2
        rcases List.mem_cons.mp hv with rfl | hv
        · decide
        · rw [List.mem_singleton.mp hv]
          exact basic_of_lt (Nat.lt_trans (UInt16.lt_iff_toNat_lt.mp hlow) (by decide))
    | none =>
        rw [hshort] at hv
        simp only at hv
        have hu : u.toNat < 65536 := u.toNat_lt
        split at hv
        · simp only [hexUnit, List.mem_cons, List.not_mem_nil, or_false] at hv
          rcases hv with rfl | rfl | rfl | rfl | rfl | rfl
          · decide
          · decide
          · exact hexDigit_basic _ (by omega)
          · exact hexDigit_basic _ (by omega)
          · exact hexDigit_basic _ (by omega)
          · exact hexDigit_basic _ (by omega)
        · rename_i hplain
          rw [List.mem_singleton.mp hv]
          simpa only [not_or, Bool.not_eq_true, Bool.or_eq_false_iff] using (not_or.mp hplain).2
  fun_induction escape text with
  | case1 => rfl
  | case2 u => exact hunit u rest
  | case3 u v tail hpair ih =>
      rw [List.cons_append, List.cons_append, wellFormed, if_pos hpair, ih]
  | case4 u v tail _ ih => rw [List.append_assoc, hunit, ih]

theorem wellFormed_stringify_append (text rest : Text) :
    wellFormed (stringify text ++ rest) = wellFormed rest := by
  have hone : ∀ rest, wellFormed (quote :: rest) = wellFormed rest :=
    wellFormed_cons_of_basic (by decide)
  unfold stringify
  rw [List.cons_append, hone, List.append_assoc, wellFormed_escape_append, List.singleton_append,
    hone]

end JsonString

end CopilotFleet
