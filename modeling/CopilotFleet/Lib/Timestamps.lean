import Mathlib.Data.List.Lex
import Mathlib.Data.Fin.Basic

/-!
# Timestamps

A timestamp is a text that names an instant: a minute, and then its seconds and
the digits of a fraction, either of which may be left out. Several texts name
one instant, and texts are not ordered as their instants are: `…10:00:00.5Z`
comes before `…10:00:00Z`, since a point comes before the letter that ends
both.

The text that an instant is given has its seconds and three digits. Among such
texts the orders agree, and no text that is not behind one names a later
instant (`instant_le_of_not_lt`).

## Main definitions

* `Seconds`: What stands after the minute.
* `Timestamp`: A timestamp as it is written.
* `Timestamp.instant`: The instant that it names.
* `toISOString`: The text that an instant is given.

## Theorems

* `instant_toISOString`: It names that instant.
* `instant_le_of_not_lt`: What is not behind it names no later one.
-/

namespace CopilotFleet

namespace Timestamps

/-- What a timestamp has after its minute. -/
inductive Seconds where
  | absent
  | whole (second : Fin 60)
  | fraction (second : Fin 60) (digits : List (Fin 10))
deriving DecidableEq

/-- A timestamp as it is written, from the year 0 to 9999. The minute is counted from the
    epoch; the texts of two minutes, all of one length, compare as their counts do. -/
structure Timestamp where
  minute : Int
  seconds : Seconds
deriving DecidableEq

/-- The code units of a second: a colon and two digits. -/
def secondText (second : Fin 60) : List Nat :=
  [58, 48 + second.val / 10, 48 + second.val % 10]

/-- The code units after the minute. A point is 46 and the last letter 90. -/
def Seconds.text : Seconds → List Nat
  | .absent => [90]
  | .whole second => secondText second ++ [90]
  | .fraction second digits =>
      secondText second ++ 46 :: (digits.map (fun digit => 48 + digit.val) ++ [90])

/-- Timestamps are compared as texts. -/
instance : LT Timestamp where
  lt a b := a.minute < b.minute ∨ a.minute = b.minute ∧ a.seconds.text < b.seconds.text

instance : DecidableLT Timestamp := fun a b =>
  inferInstanceAs
    (Decidable (a.minute < b.minute ∨ a.minute = b.minute ∧ a.seconds.text < b.seconds.text))

/-- The first three digits of a fraction. Whatever follows them is not read. -/
def thousandths : List (Fin 10) → Int
  | [] => 0
  | [a] => 100 * a.val
  | [a, b] => 100 * a.val + 10 * b.val
  | a :: b :: c :: _ => 100 * a.val + 10 * b.val + c.val

def Seconds.milliseconds : Seconds → Int
  | .absent => 0
  | .whole second => 1000 * second.val
  | .fraction second digits => 1000 * second.val + thousandths digits

/-- The instant that a timestamp names, in milliseconds since the epoch. -/
def Timestamp.instant (t : Timestamp) : Int := 60000 * t.minute + t.seconds.milliseconds

/-- A digit of a number. -/
def digit (n : Int) : Fin 10 := Fin.ofNat 10 n.toNat

/-- An instant as it is written, to the millisecond. -/
def toISOString (t : Int) : Timestamp where
  minute := t / 60000
  seconds := .fraction (Fin.ofNat 60 (t / 1000 % 60).toNat)
    [digit (t / 100 % 10), digit (t / 10 % 10), digit (t % 10)]

theorem digit_val {n : Int} (hpos : 0 ≤ n) (hlt : n < 10) : ((digit n).val : Int) = n := by
  unfold digit
  rw [Fin.val_ofNat]
  omega

theorem second_val (t : Int) :
    (((Fin.ofNat 60 (t / 1000 % 60).toNat : Fin 60).val : Int)) = t / 1000 % 60 := by
  rw [Fin.val_ofNat]
  omega

/-- The instant is read back from its text. -/
@[simp] theorem instant_toISOString (t : Int) : (toISOString t).instant = t := by
  have htenth : t / 10 / 10 = t / 100 := by omega
  have hhundredth : t / 100 / 10 = t / 1000 := by omega
  have hminute : t / 1000 / 60 = t / 60000 := by omega
  have hhundreds := @digit_val (t / 100 % 10) (by omega) (by omega)
  have htens := @digit_val (t / 10 % 10) (by omega) (by omega)
  have hones := @digit_val (t % 10) (by omega) (by omega)
  have hseconds := second_val t
  unfold Timestamp.instant toISOString
  simp only [Seconds.milliseconds, thousandths]
  omega

theorem secondText_lt {a b : Fin 60} (h : a < b) (u v : List Nat) :
    secondText a ++ u < secondText b ++ v := by
  have hval : a.val < b.val := h
  have htens : a.val / 10 < b.val / 10 ∨ a.val / 10 = b.val / 10 ∧ a.val % 10 < b.val % 10 := by
    omega
  unfold secondText
  simp only [List.cons_append, List.nil_append, List.cons_lt_cons_iff]
  rcases htens with htens | ⟨htens, hones⟩
  · exact .inr ⟨trivial, .inl (by omega)⟩
  · exact .inr ⟨trivial, .inr ⟨by omega, .inl (by omega)⟩⟩

theorem thousandths_bounds (digits : List (Fin 10)) :
    0 ≤ thousandths digits ∧ thousandths digits ≤ 999 := by
  rcases digits with _ | ⟨x, _ | ⟨y, _ | ⟨z, rest⟩⟩⟩ <;> simp only [thousandths] <;> omega

/-- What is not before three digits is no more than they are, to the millisecond. -/
theorem thousandths_le {a b c : Fin 10} {digits : List (Fin 10)}
    (h : ¬[a, b, c].map (fun digit => 48 + digit.val) ++ [90] <
      digits.map (fun digit => 48 + digit.val) ++ [90]) :
    thousandths digits ≤ thousandths [a, b, c] := by
  rcases digits with _ | ⟨x, _ | ⟨y, _ | ⟨z, rest⟩⟩⟩ <;>
    simp only [List.map_cons, List.map_nil, List.cons_append, List.nil_append,
      List.cons_lt_cons_iff, List.not_lt_nil] at h <;>
    simp only [thousandths] <;>
    omega

theorem milliseconds_lt (seconds : Seconds) :
    0 ≤ seconds.milliseconds ∧ seconds.milliseconds < 60000 := by
  cases seconds with
  | absent => decide
  | whole second =>
      simp only [Seconds.milliseconds]
      omega
  | fraction second digits =>
      have hdigits := thousandths_bounds digits
      simp only [Seconds.milliseconds]
      omega

/-- What is not before seconds with three digits is no more than they are. -/
theorem milliseconds_le {second : Fin 60} {a b c : Fin 10} {seconds : Seconds}
    (h : ¬(Seconds.fraction second [a, b, c]).text < seconds.text) :
    seconds.milliseconds ≤ (Seconds.fraction second [a, b, c]).milliseconds := by
  have hdigits := thousandths_bounds [a, b, c]
  cases seconds with
  | absent =>
      refine absurd ?_ h
      simp [Seconds.text, secondText, List.cons_lt_cons_iff]
  | whole other =>
      simp only [Seconds.milliseconds]
      rcases Nat.lt_trichotomy second.val other.val with hless | hsame | hmore
      · exact absurd (secondText_lt hless _ _) h
      · -- A point comes before the last letter.
        refine absurd ?_ h
        simp [Seconds.text, Fin.ext hsame, secondText, List.cons_lt_cons_iff]
      · omega
  | fraction other digits =>
      have hother := thousandths_bounds digits
      simp only [Seconds.milliseconds]
      rcases Nat.lt_trichotomy second.val other.val with hless | hsame | hmore
      · exact absurd (secondText_lt hless _ _) h
      · have hle := @thousandths_le a b c digits fun hless => h (by
          simpa [Seconds.text, Fin.ext hsame, secondText, List.cons_lt_cons_iff] using hless)
        omega
      · omega

/-- A timestamp that is not behind the text of an instant names no later one. -/
theorem instant_le_of_not_lt {t : Int} {stamp : Timestamp} (h : ¬toISOString t < stamp) :
    stamp.instant ≤ t := by
  have hread := instant_toISOString t
  rcases not_or.mp h with ⟨hminute, htext⟩
  have hafter := milliseconds_lt stamp.seconds
  have hbefore := milliseconds_lt (toISOString t).seconds
  unfold Timestamp.instant at hread ⊢
  by_cases hsame : (toISOString t).minute = stamp.minute
  · -- Within the minute the rest of the text decides.
    have hseconds : stamp.seconds.milliseconds ≤ (toISOString t).seconds.milliseconds :=
      milliseconds_le fun hless => htext ⟨hsame, hless⟩
    omega
  · omega

/-- A text with fewer digits may stand behind one that names a later instant. -/
example : toISOString 36000500 < ⟨600, .whole 0⟩ ∧
    (⟨600, .whole 0⟩ : Timestamp).instant < (toISOString 36000500).instant := by decide

end Timestamps

end CopilotFleet
